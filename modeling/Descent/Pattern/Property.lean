import Descent.Unicode.Category
import Descent.Unicode.Property
import Descent.Unicode.Script

/-!
# Sets that patterns ask for by name

A property is asked for by its name alone, or by the name of a property and one of its values. Names
are compared loosely: case, blanks, hyphens, underscores and a leading `is` do not count.
-/

namespace Descent.Pattern

/-- How a pattern names a property. -/
inductive PropertyQuery
  /-- A name alone. -/
  | name (name : List Char)
  /-- A property and a value. -/
  | value (property value : List Char)
  deriving DecidableEq, Repr

/-- The sets that can be asked for by name. -/
abbrev Sets := PropertyQuery → Option CharSet

/-- A name in the form in which names are compared. -/
def normalName (name : List Char) : String :=
  let keep := fun (chars : List Char) =>
    ((chars.filter fun c => c.toNat < 0x80).filter
      fun c => !(c == ' ' || c == '_' || c == '-')).map Char.toLower
  match name with
  | i :: s :: rest =>
    if (i == 'i' || i == 'I') && (s == 's' || s == 'S') then
      let short := keep rest
      String.ofList (if short = ['c'] then ['i', 's', 'c'] else short)
    else String.ofList (keep name)
  | _ => String.ofList (keep name)

/-- The names of the general categories and of their groups, each with the categories it covers. -/
def categoryNames : List (List String × List String) :=
  [(["c", "other"], ["Cc", "Cf", "Cn", "Co", "Cs"]),
   (["cc", "control", "cntrl"], ["Cc"]),
   (["cf", "format"], ["Cf"]),
   (["cn", "unassigned"], ["Cn"]),
   (["co", "privateuse"], ["Co"]),
   (["l", "letter"], ["Lu", "Ll", "Lt", "Lm", "Lo"]),
   (["lc", "casedletter"], ["Lu", "Ll", "Lt"]),
   (["ll", "lowercaseletter"], ["Ll"]),
   (["lm", "modifierletter"], ["Lm"]),
   (["lo", "otherletter"], ["Lo"]),
   (["lt", "titlecaseletter"], ["Lt"]),
   (["lu", "uppercaseletter"], ["Lu"]),
   (["m", "mark", "combiningmark"], ["Mn", "Mc", "Me"]),
   (["mc", "spacingmark"], ["Mc"]),
   (["me", "enclosingmark"], ["Me"]),
   (["mn", "nonspacingmark"], ["Mn"]),
   (["n", "number"], ["Nd", "Nl", "No"]),
   (["nd", "decimalnumber", "digit"], ["Nd"]),
   (["nl", "letternumber"], ["Nl"]),
   (["no", "othernumber"], ["No"]),
   (["p", "punctuation", "punct"], ["Pc", "Pd", "Ps", "Pe", "Pi", "Pf", "Po"]),
   (["pc", "connectorpunctuation"], ["Pc"]),
   (["pd", "dashpunctuation"], ["Pd"]),
   (["pe", "closepunctuation"], ["Pe"]),
   (["pf", "finalpunctuation"], ["Pf"]),
   (["pi", "initialpunctuation"], ["Pi"]),
   (["po", "otherpunctuation"], ["Po"]),
   (["ps", "openpunctuation"], ["Ps"]),
   (["s", "symbol"], ["Sm", "Sc", "Sk", "So"]),
   (["sc", "currencysymbol"], ["Sc"]),
   (["sk", "modifiersymbol"], ["Sk"]),
   (["sm", "mathsymbol"], ["Sm"]),
   (["so", "othersymbol"], ["So"]),
   (["z", "separator"], ["Zs", "Zl", "Zp"]),
   (["zl", "lineseparator"], ["Zl"]),
   (["zp", "paragraphseparator"], ["Zp"]),
   (["zs", "spaceseparator"], ["Zs"])]

/-- The set of a general category under its normal name. -/
def categorySet? (name : String) : Option CharSet :=
  if name = "any" then some .all
  else if name = "ascii" then some ⟨[⟨0, 0x7F⟩]⟩
  else if name = "assigned" then some (Unicode.inCategories ["Cn"]).complement
  else
    (categoryNames.find? fun entry => entry.1.contains name).map fun entry =>
      Unicode.inCategories entry.2

/-- The set of a script under its normal name, which is one of its four-letter codes or its full
name. -/
def scriptSet? (name : String) : Option CharSet :=
  let name := if name = "qaac" then "copt" else if name = "qaai" then "zinh" else name
  (Unicode.scriptNames.find? fun entry =>
    normalName entry.1.toList = name || normalName entry.2.toList = name).map fun entry =>
      Unicode.inScript entry.1

/-- The short names of the properties that hold or do not hold. -/
def propertyShortNames : List (String × String) :=
  [("ahex", "asciihexdigit"), ("alpha", "alphabetic"), ("bidic", "bidicontrol"),
   ("bidim", "bidimirrored"), ("ci", "caseignorable"), ("cwcf", "changeswhencasefolded"),
   ("cwcm", "changeswhencasemapped"), ("cwl", "changeswhenlowercased"),
   ("cwt", "changeswhentitlecased"), ("cwu", "changeswhenuppercased"),
   ("di", "defaultignorablecodepoint"), ("dep", "deprecated"), ("dia", "diacritic"),
   ("ecomp", "emojicomponent"), ("emod", "emojimodifier"), ("ebase", "emojimodifierbase"),
   ("epres", "emojipresentation"), ("extpict", "extendedpictographic"), ("ext", "extender"),
   ("grbase", "graphemebase"), ("grext", "graphemeextend"), ("hex", "hexdigit"),
   ("idsb", "idsbinaryoperator"), ("idst", "idstrinaryoperator"), ("idc", "idcontinue"),
   ("ids", "idstart"), ("ideo", "ideographic"), ("joinc", "joincontrol"),
   ("loe", "logicalorderexception"), ("lower", "lowercase"), ("nchar", "noncharactercodepoint"),
   ("patsyn", "patternsyntax"), ("patws", "patternwhitespace"), ("qmark", "quotationmark"),
   ("ri", "regionalindicator"), ("sterm", "sentenceterminal"), ("sd", "softdotted"),
   ("term", "terminalpunctuation"), ("uideo", "unifiedideograph"), ("upper", "uppercase"),
   ("vs", "variationselector"), ("space", "whitespace"), ("wspace", "whitespace"),
   ("xidc", "xidcontinue"), ("xids", "xidstart")]

/-- The set of a property under its normal name, short or long. -/
def propertySet? (name : String) : Option CharSet :=
  let long := (propertyShortNames.lookup name).getD name
  (Unicode.properties.find? fun entry => normalName entry.1.toList = long).map Prod.snd

/-- The set that is asked for, if there is one of that name among the categories, scripts and properties
that hold or do not hold. -/
def PropertyQuery.set? : PropertyQuery → Option CharSet
  | .name n =>
    let normal := normalName n
    (propertySet? normal).or ((categorySet? normal).or (scriptSet? normal))
  | .value p v =>
    let property := normalName p
    let normal := normalName v
    if property = "gc" || property = "generalcategory" then categorySet? normal
    else if property = "sc" || property = "script" then scriptSet? normal
    else none

end Descent.Pattern
