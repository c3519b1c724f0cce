import Descent.Unicode.Stretch

/-!
# Characters that differ only in case

The table lists pairs of code points that a search without regard to case takes for equal. A word
`code:distance:count:step` stands for `count` pairs, each `step` further on than the one before;
`count` and `step` are one where they are left out. Where three or four characters are equal, every
pair of them is listed.
-/

namespace Descent.Unicode

/-- The pairs, in increasing order of their smaller members. -/
def caseTable : List String :=
  ["65:32:26 75:8415 83:300 107:8383 115:268 181:743 181:775 192:32:23 197:8294 216:32:7",
    "223:7615 229:8262 255:121 256:1:24:2 306:1:3:2 313:1:8:2 330:1:23:2 377:1:3:2 384:195",
    "385:210 386:1:2:2 390:206 391:1:2:4 393:205:2 398:79 399:202 400:203 401:1 403:205 404:207",
    "405:97 406:211 407:209 408:1 410:163 411:42561 412:211 413:213 414:130 415:214 416:1:3:2",
    "422:218:2:3 423:1 428:1:2:3 430:218 433:217:2 435:1:2:2 439:219 440:1:2:4 447:56 452:1:4:3",
    "452:2:3:3 453:1:3:3 463:1:7:2 478:1:9:2 497:1:2 497:2 500:1:11:4 506:1:15:4 548:1:4:4",
    "570:10795 571:1 574:10792 575:10815:2 577:1 580:69 581:71 582:1:5:2 592:10783 593:10780",
    "594:10782 604:42319 609:42315 612:42343 613:42280 614:42308:2:4 619:10743 620:42305",
    "625:10749 637:10727 642:42307 647:42282 669:42261 670:42258 837:84 837:116 837:7289",
    "880:1:2:2 886:1 891:130:3 895:116 902:38 904:37:3 908:64 910:63:2 912:7235 913:32:17",
    "914:62 917:96 920:57 920:92 921:7205 922:86 928:54 929:80 931:31 931:32:9 934:47 937:7549",
    "944:7219 946:30 949:64 952:25 952:60 953:7173 954:54 960:22 961:48 962:1 966:15 969:7517",
    "975:8 977:35 984:1:12:2 1010:7 1015:1:2:3 1024:80:16 1040:32:32 1042:6254 1044:6253",
    "1054:6244 1057:6242:2 1058:6243 1066:6236 1074:6222 1076:6221 1086:6212 1089:6210:2",
    "1090:6211 1098:6204 1120:1:17:2 1122:6181 1123:6180 1162:1:27:2 1216:15 1217:1:7:2",
    "1232:1:48:2 1329:48:38 4256:7264:38 4295:7264 4301:7264 4304:3008:43 4349:3008:3",
    "5024:38864:80 5104:8:6 7300:1 7304:35266 7304:35267 7305:1 7545:35332 7549:3814 7566:35384",
    "7680:1:75:2 7776:59 7777:58 7840:1:48:2 7936:8:8 7952:8:6 7968:8:8 7984:8:8 8000:8:6",
    "8017:8:4:2 8032:8:8 8048:74:2 8050:86:4 8054:100:2 8056:128:2 8058:112:2 8060:126:2",
    "8064:8:8 8080:8:8 8096:8:8 8112:8:2 8115:9 8131:9 8144:8:2 8160:8:2 8165:7 8179:9 8498:28",
    "8544:16:16 8579:1 9398:26:26 11264:48:48 11360:1 11367:1:3:2 11378:1:2:3 11392:1:50:2",
    "11499:1:2:2 11506:1 42560:1:23:2 42624:1:14:2 42786:1:20:4 42788:1:3:4 42804:1:15:4",
    "42873:1:2:2 42878:1:5:2 42891:1 42896:1:2:2 42900:48 42902:1:10:2 42931:928 42932:1:8:2",
    "42951:1:2:2 42956:1:2:4 42966:1:3:2 42997:1 64261:1 65313:32:26 66560:40:40 66736:40:36",
    "66928:39:19:2 66929:39:10:4 66931:39:2:4 66943:39:3:4 66959:39 68736:64:51 68944:32:22",
    "71840:32:32 93760:32:32 125184:34:34"]

/-- The pairs that one word of the table stands for. -/
def casePairsOf (word : List Char) : List (Nat × Nat) :=
  match (word.splitOn ':').map number with
  | [code, distance] => [(code, code + distance)]
  | [code, distance, count] =>
    (List.range count).map fun i => (code + i, code + i + distance)
  | [code, distance, count, step] =>
    (List.range count).map fun i => (code + i * step, code + i * step + distance)
  | _ => []

/-- All pairs of code points that differ only in case. -/
def casePairs : List (Nat × Nat) := (words caseTable).flatMap casePairsOf

/-- The set with every character that differs only in case from one of its members. -/
def closeUnderCase (s : CharSet) : CharSet :=
  let added := casePairs.flatMap fun (a, b) =>
    let hasA := CharSet.memberOf s.ranges a
    let hasB := CharSet.memberOf s.ranges b
    (if hasA then [⟨b, b⟩] else []) ++ (if hasB then [⟨a, a⟩] else [])
  if added.isEmpty then s else CharSet.ofRanges (s.ranges ++ added)

end Descent.Unicode
