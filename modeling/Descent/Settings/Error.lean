import Descent.Settings.Tree

/-!
# What can be wrong with settings

The causes for which settings are refused, and the wording of those that have one here.
-/

namespace Descent

/-- What a setting stands for, as far as it is spoken of in complaints. -/
inductive SettingKind
  | grammar | format | parse | logging
  deriving DecidableEq, Inhabited, Repr

/-- The name of a kind of setting in complaints. -/
def SettingKind.label : SettingKind → String
  | grammar => "BuiltinGrammar"
  | format => "OutputFormat"
  | parse => "ParseConfig"
  | logging => "LoggingConfig"

/-- Why settings are refused. -/
inductive SettingsError
  /-- A key that is set apart from any file is no key path. -/
  | keySyntax (key : String)
  /-- A file is no document. -/
  | fileSyntax (name : String)
  /-- A file cannot be read, for the given reason. -/
  | unreadable (reason : String)
  /-- A name that stands for nothing of the kind. -/
  | unknownName (kind : SettingKind) (name : String)
  /-- Neither a name nor a table with a name as its only key. -/
  | notAName (kind : SettingKind)
  /-- Neither a table nor a list where a group of settings is expected. -/
  | notAGroup (kind : SettingKind) (found : String)
  /-- A list with too few elements for a group of so many settings. -/
  | tooFew (kind : SettingKind) (length size : Nat)
  /-- A group without one of its settings. -/
  | missing (name : String)
  /-- A value that cannot be taken for what is expected, at a place and maybe in a file. -/
  | wrongType (found expected place : String) (origin : Option String)
  deriving DecidableEq, Repr

namespace SettingsError

/-- The complaint in words. -/
def message : SettingsError → String
  | keySyntax key => "cannot read the key \x60" ++ key ++ "\x60"
  | fileSyntax name => "TOML parse error in " ++ name
  | unreadable reason => reason
  | unknownName kind name =>
    "enum " ++ kind.label ++ " does not have variant constructor " ++ name
  | notAName kind =>
    "value of enum " ++ kind.label ++
      " should be represented by either string or table with exactly one key"
  | notAGroup kind found => "invalid type: " ++ found ++ ", expected struct " ++ kind.label
  | tooFew kind length size =>
    "invalid length " ++ toString length ++ ", expected struct " ++ kind.label ++ " with " ++
      toString size ++ (if size = 1 then " element" else " elements")
  | missing name => "missing field \x60" ++ name ++ "\x60"
  | wrongType found expected place origin =>
    "invalid type: " ++ found ++ ", expected " ++ expected ++ " for key \x60" ++ place ++ "\x60" ++
      (match origin with
        | some name => " in " ++ name
        | none => "")

/-- The complaint about a file that is not there. -/
def notFound (name : String) : SettingsError :=
  unreadable ("configuration file \"" ++ name ++ "\" not found")

end SettingsError

end Descent
