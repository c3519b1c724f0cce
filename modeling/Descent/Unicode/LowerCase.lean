import Descent.Unicode.Property

/-!
# Small letters

Every letter with a small form goes over into it. Two letters have a rule of their own: a dotted capital
I keeps its dot as a mark, and a capital sigma at the end of a word becomes a final sigma.
-/

namespace Descent.Unicode

/-- Letters and their small forms. A word `code:small:count:step` stands for `count` letters, each `step`
further on than the one before, with small forms at the same distances; `count` and `step` are one where
they are left out. -/
def smallTable : List String :=
  ["65:97:26 192:224:23 216:248:7 256:257:24:2 306:307:3:2 313:314:8:2 330:331:23:2 376:255",
    "377:378:3:2 385:595 386:387:2:2 390:596 391:392:2:4 393:598:2 398:477 399:601 400:603",
    "401:402 403:608 404:611 406:617 407:616 408:409 412:623 413:626 415:629 416:417:3:2",
    "422:640:2:3 423:424 428:429:2:3 430:648 433:650:2 435:436:2:2 439:658 440:441:2:4",
    "452:454:3:3 453:454:3:3 461:462:8:2 478:479:9:2 497:499 498:499:2:2 502:405 503:447",
    "504:505:20:2 544:414 546:547:9:2 570:11365 571:572 573:410 574:11366 577:578 579:384 580:649",
    "581:652 582:583:5:2 880:881:2:2 886:887 895:1011 902:940 904:941:3 908:972 910:973:2",
    "913:945:17 931:963:9 975:983 984:985:12:2 1012:952 1015:1016:2:3 1017:1010 1021:891:3",
    "1024:1104:16 1040:1072:32 1120:1121:17:2 1162:1163:27:2 1216:1231 1217:1218:7:2",
    "1232:1233:48:2 1329:1377:38 4256:11520:38 4295:11559 4301:11565 5024:43888:80 5104:5112:6",
    "7305:7306 7312:4304:43 7357:4349:3 7680:7681:75:2 7838:223 7840:7841:48:2 7944:7936:8",
    "7960:7952:6 7976:7968:8 7992:7984:8 8008:8000:6 8025:8017:4:2 8040:8032:8 8072:8064:8",
    "8088:8080:8 8104:8096:8 8120:8112:2 8122:8048:2 8124:8115 8136:8050:4 8140:8131 8152:8144:2",
    "8154:8054:2 8168:8160:2 8170:8058:2 8172:8165 8184:8056:2 8186:8060:2 8188:8179 8486:969",
    "8490:107 8491:229 8498:8526 8544:8560:16 8579:8580 9398:9424:26 11264:11312:48 11360:11361",
    "11362:619 11363:7549 11364:637 11367:11368:3:2 11373:593 11374:625 11375:592 11376:594",
    "11378:11379:2:3 11390:575:2 11392:11393:50:2 11499:11500:2:2 11506:11507 42560:42561:23:2",
    "42624:42625:14:2 42786:42787:20:4 42788:42789:3:4 42804:42805:15:4 42873:42874:2:2",
    "42877:7545 42878:42879:5:2 42891:42892 42893:613 42896:42897:2:2 42902:42903:10:2",
    "42922:614:2:4 42923:604 42924:609 42925:620 42928:670 42929:647 42930:669 42931:43859",
    "42932:42933:8:2 42948:42900 42949:642 42950:7566 42951:42952:2:2 42955:612 42956:42957:2:4",
    "42966:42967:3:2 42972:411 42997:42998 65313:65345:26 66560:66600:40 66736:66776:36",
    "66928:66967:19:2 66929:66968:10:4 66931:66970:2:4 66943:66982:3:4 66959:66998 68736:68800:51",
    "68944:68976:22 71840:71872:32 93760:93792:32 125184:125218:34"]

/-- Letters at equal distances whose small forms stand at the same distances. -/
structure SmallForms where
  first : Nat
  small : Nat
  count : Nat
  step : Nat
  deriving Inhabited

/-- What one word of the table says. -/
def SmallForms.ofWord? (word : List Char) : Option SmallForms :=
  match (word.splitOn ':').map number with
  | [first, small] => some ⟨first, small, 1, 1⟩
  | [first, small, count] => some ⟨first, small, count, 1⟩
  | [first, small, count, step] => some ⟨first, small, count, step⟩
  | _ => none

/-- The small form of one of these letters. -/
def SmallForms.smallOf? (f : SmallForms) (code : Nat) : Option Nat :=
  if f.first ≤ code ∧ (code - f.first) % f.step = 0 ∧ (code - f.first) / f.step < f.count then
    some (f.small + (code - f.first))
  else none

/-- All letters with small forms. -/
def smallForms : List SmallForms := (words smallTable).filterMap SmallForms.ofWord?

/-- The small form of a character, which is the character itself if it has no other. -/
def smallForm (c : Char) : List Char :=
  if c.toNat < 128 then [c.toLower]
  else if c = '\u0130' then ['i', '\u0307']
  else
    match smallForms.findSome? fun f => f.smallOf? c.toNat with
    | some code => [Char.ofNat code]
    | none => [c]

/-- Whether a letter comes first after the characters that a word takes no notice of. -/
def meetsLetter (chars : List Char) : Bool :=
  match chars.dropWhile fun c => caseIgnorable.contains c with
  | c :: _ => cased.contains c
  | [] => false

/-- The text in small letters; `before` is what stands before it, last character first. -/
def toSmallAfter (before : List Char) : List Char → List Char
  | [] => []
  | c :: rest =>
    let small :=
      if c = '\u03A3' then
        if meetsLetter before && !meetsLetter rest then ['\u03C2'] else ['\u03C3']
      else smallForm c
    small ++ toSmallAfter (c :: before) rest

/-- The text in small letters. -/
def toSmall (text : List Char) : List Char := toSmallAfter [] text

end Descent.Unicode
