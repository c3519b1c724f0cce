import Descent.Settings.Basic
import Mathlib.Data.List.Induction

/-!
# What is said about a setting

A layer may set a value for a setting, say nothing about it, or do something else where it stands: lay
a table there, put something else than a table in place of its group, or change it as an element of a
list. What a layer says can be read off the entries of its document, without any tree. Laid over a
tree, a layer does what it says: a setting that it sets has the new value, and one about which it is
silent is as before (`follows_tree`).
-/

namespace Descent

/-- Where one thing is done after another without an error, so were both. -/
theorem exists_of_bind_ok {ε α β : Type} {x : Except ε α} {f : α → Except ε β} {b : β}
    (h : x >>= f = .ok b) : ∃ a, x = .ok a ∧ f a = .ok b := by
  cases x with
  | error e =>
    change Except.error e = Except.ok b at h
    cases h
  | ok a => exact ⟨a, rfl, h⟩

/-- Where it ends in an error, one of them has. -/
theorem exists_of_bind_error {ε α β : Type} {x : Except ε α} {f : α → Except ε β} {e : ε}
    (h : x >>= f = .error e) : x = .error e ∨ ∃ a, x = .ok a ∧ f a = .error e := by
  cases x with
  | error e' =>
    obtain rfl : e' = e := Except.error.inj h
    exact .inl rfl
  | ok a => exact .inr ⟨a, rfl, h⟩

/-! ## Mentions -/

/-- A setting that has a default. -/
inductive SettingKey
  | grammar | format | trimsLineEnd | level
  deriving DecidableEq

namespace SettingKey

/-- The group of the setting. -/
def group : SettingKey → String
  | level => "logging"
  | _ => "parse"

/-- The name of the setting in its group. -/
def name : SettingKey → String
  | grammar => "grammar"
  | format => "format"
  | trimsLineEnd => "trim_trailing_newline"
  | level => "level"

/-- The key under which the setting is given directly. -/
def text (k : SettingKey) : String := k.group ++ "." ++ k.name

/-- The value that holds where no layer sets one. -/
def default : SettingKey → Scalar
  | grammar => .text "json"
  | format => .text "text"
  | trimsLineEnd => .bool true
  | level => .text "warn"

end SettingKey

/-- What is said about a setting. -/
inductive Mention
  /-- Nothing. -/
  | silent
  /-- A single value. -/
  | sets (s : Scalar)
  /-- Anything else. -/
  | other
  deriving DecidableEq

namespace Mention

/-- What is said in the end, if one mention follows another. -/
def above : Mention → Mention → Mention
  | silent, earlier => earlier
  | m, _ => m

/-- The last mention that is not silent. -/
def last (mentions : List Mention) : Mention :=
  mentions.foldl (fun earlier m => m.above earlier) silent

/-- What is said by giving a value of a document. -/
def ofDatum : Datum → Mention
  | .scalar s => sets s
  | _ => other

/-- Of more mentions the last one counts first. -/
theorem last_concat (mentions : List Mention) (m : Mention) :
    last (mentions ++ [m]) = m.above (last mentions) := by
  simp [last]

/-- Silence at the start changes nothing. -/
theorem above_silent (m : Mention) : m.above silent = m := by
  cases m <;> rfl

/-- A mention counts before two others if it counts before the first of them. -/
theorem above_assoc (m m' m'' : Mention) : (m.above m').above m'' = m.above (m'.above m'') := by
  cases m <;> rfl

end Mention

namespace SettingKey

/-- What an entry of its group says about a setting. -/
def inGroup (k : SettingKey) (key : String) (d : Datum) : Mention :=
  if Setting.key key = k.name then .ofDatum d else .silent

/-- What a value says that is laid over the place at the end of a path. -/
def inPath (k : SettingKey) (path : KeyPath) (d : Datum) : Mention :=
  if Setting.key path.first ≠ k.group then .silent
  else
    match path.rest, d with
    | [], .table entries => .last (entries.map fun (key, d) => k.inGroup key d)
    | [], _ => .other
    | [.entry key], d => k.inGroup key d
    | .entry key :: _ :: _, _ => if Setting.key key = k.name then .other else .silent
    | .element _ :: _, _ => .other

/-- What the entries of a document say. -/
def inEntries (k : SettingKey) (entries : List (String × Datum)) : Mention :=
  .last (entries.map fun (key, d) => k.inPath (Layer.pathOfKey key) d)

end SettingKey

/-- What a file says about a setting, if it is a document. -/
def SettingsFile.mention? (f : SettingsFile) (k : SettingKey) : Option Mention :=
  (Toml.document? f.text).map k.inEntries

namespace Layer

/-- What a layer that is a file says about a setting. -/
def filed (k : SettingKey) : Layer → Mention
  | file _ (.ok f) => (f.mention? k).getD .silent
  | _ => .silent

/-- What a layer says that gives a value directly. -/
def given (k : SettingKey) : Layer → Mention
  | value key s => ((KeyPath.ofText? key.toList).map fun path => k.inPath path (.scalar s)).getD .silent
  | _ => .silent

/-- What layers say about a setting: a value given directly counts before every file, and of several
values or files the last one that is not silent counts. -/
def mention (layers : List Layer) (k : SettingKey) : Mention :=
  (Mention.last (layers.map (given k))).above (.last (layers.map (filed k)))

end Layer

/-! ## Trees -/

namespace Setting

variable {root value target : Setting} {name key : String} {origin : Option String}

/-- An entry that was set is there. -/
theorem lookup_putInto_self (key : String) (value : Setting) (entries : List (String × Setting)) :
    (putInto key value entries).lookup key = some value := by
  induction entries with
  | nil => simp [putInto]
  | cons entry rest ih =>
    obtain ⟨k, old⟩ := entry
    by_cases hk : k = key
    · simp [putInto, hk]
    · have hne : (key == k) = false := beq_false_of_ne (Ne.symm hk)
      simpa [putInto, hk, List.lookup_cons, hne] using ih

/-- The other entries are as they were. -/
theorem lookup_putInto_of_ne (hname : name ≠ key) (value : Setting)
    (entries : List (String × Setting)) :
    (putInto key value entries).lookup name = entries.lookup name := by
  have hne : (name == key) = false := beq_false_of_ne hname
  induction entries with
  | nil => simp [putInto, List.lookup_cons, hne]
  | cons entry rest ih =>
    obtain ⟨k, old⟩ := entry
    by_cases hk : k = key
    · subst hk
      simp [putInto, List.lookup_cons, hne]
    · simp [putInto, hk, List.lookup_cons, ih]

/-- An entry that was set is there. -/
@[simp]
theorem lookup?_put_self (root : Setting) (key : String) (value : Setting) :
    (root.put key value).lookup? key = some value := by
  cases root with
  | table entries origin => exact lookup_putInto_self key value entries
  | single s origin | list items origin => simp [put, lookup?, entries]

/-- The other entries are as they were; what is no table had none. -/
theorem lookup?_put_of_ne (hname : name ≠ key) (root value : Setting) :
    (root.put key value).lookup? name = root.lookup? name := by
  cases root with
  | table entries origin => exact lookup_putInto_of_ne hname value entries
  | single s origin | list items origin =>
    have hne : (name == key) = false := beq_false_of_ne hname
    simp [put, lookup?, entries, List.lookup_cons, hne]

/-- A value laid over an entry leaves the others alone. -/
theorem lookup?_overlay_of_ne (hname : name ≠ key) (value root : Setting) :
    (overlay key value root).lookup? name = root.lookup? name := by
  cases value with
  | table incoming origin => exact lookup?_put_of_ne hname root _
  | single s origin | list items origin => exact lookup?_put_of_ne hname root _

/-- Entries are laid over a table one by one. -/
theorem overlayAll_ofEntries (origin : Option String) (entries : List (String × Datum))
    (target : Setting) :
    overlayAll (ofEntries origin entries) target =
      entries.foldl (fun target entry =>
        overlay (Setting.key entry.1) (ofDatum origin entry.2) target) target := by
  induction entries generalizing target with
  | nil => rfl
  | cons entry entries ih => exact ih _

/-- The value of a setting, if there is one. -/
def at? (root : Setting) (k : SettingKey) : Option Setting :=
  (root.lookup? k.group).bind (·.lookup? k.name)

/-- A setting is found in its group. -/
theorem at?_put_group (root group : Setting) (k : SettingKey) :
    (root.put k.group group).at? k = group.lookup? k.name := by
  simp [at?]

/-- Where the group is missing, anything without entries can stand for it. -/
theorem lookup?_getD_group {k : SettingKey} {fallback : Setting} (h : fallback.entries = []) :
    ((root.lookup? k.group).getD fallback).lookup? k.name = root.at? k := by
  unfold at?
  cases root.lookup? k.group with
  | none => simp [lookup?, h]
  | some group => rfl

end Setting

/-- After what was said, what is looked up is what was set, or as before if nothing was said. -/
def Mention.Follows (get : Setting → Option Setting) (before after : Setting) : Mention → Prop
  | silent => get after = get before
  | sets s => ∃ origin, get after = some (.single s origin)
  | other => True

namespace Mention.Follows

variable {get : Setting → Option Setting} {s s' s'' : Setting} {m m' : Mention} {α : Type}

/-- Nothing said, nothing done. -/
theorem refl (s : Setting) : silent.Follows get s s := rfl

/-- What is said later counts first. -/
theorem trans (h : m.Follows get s s') (h' : m'.Follows get s' s'') :
    (m'.above m).Follows get s s'' := by
  cases m' with
  | silent =>
    have hsame : get s'' = get s' := h'
    cases m with
    | silent => exact hsame.trans h
    | sets v =>
      obtain ⟨origin, hset⟩ := h
      exact ⟨origin, hsame.trans hset⟩
    | other => trivial
  | sets v => exact h'
  | other => trivial

/-- One change after the other does what is said last. -/
theorem foldl (change : Setting → α → Setting) (said : α → Mention) (items : List α)
    (h : ∀ item ∈ items, ∀ s, (said item).Follows get s (change s item)) (s : Setting) :
    (last (items.map said)).Follows get s (items.foldl change s) := by
  induction items using List.reverseRecOn with
  | nil => exact refl s
  | append_singleton items item ih =>
    rw [List.map_append, List.map_singleton, last_concat, List.foldl_append]
    exact (ih fun i hi => h i (List.mem_append_left _ hi)).trans (h item (by simp) _)

end Mention.Follows

namespace Setting

variable {k : SettingKey}

/-- A value laid over an entry of the group does what it says. -/
theorem follows_overlay (k : SettingKey) (origin : Option String) (key : String) (d : Datum)
    (group : Setting) :
    (k.inGroup key d).Follows (·.lookup? k.name) group
      (overlay (Setting.key key) (ofDatum origin d) group) := by
  unfold SettingKey.inGroup
  split
  next hkey =>
    rw [hkey]
    cases d with
    | scalar s => exact ⟨origin, lookup?_put_self group k.name _⟩
    | list items => trivial
    | table entries => trivial
  next hkey =>
    exact lookup?_overlay_of_ne (Ne.symm hkey) _ group

/-- Entries laid over those of the group do what they say. -/
theorem follows_overlayAll (k : SettingKey) (origin : Option String)
    (entries : List (String × Datum)) (group : Setting) :
    (Mention.last (entries.map fun (key, d) => k.inGroup key d)).Follows (·.lookup? k.name) group
      (overlayAll (ofEntries origin entries) group) := by
  rw [overlayAll_ofEntries]
  exact .foldl _ _ entries (fun (key, d) _ => follows_overlay k origin key d) group

/-- A change of the group that does what is said does so in the whole tree. -/
theorem follows_put_group {m : Mention} {root group fallback : Setting}
    (hfallback : fallback.entries = [])
    (h : m.Follows (·.lookup? k.name) ((root.lookup? k.group).getD fallback) group) :
    m.Follows (·.at? k) root (root.put k.group group) := by
  cases m with
  | silent =>
    have hsame : group.lookup? k.name = ((root.lookup? k.group).getD fallback).lookup? k.name := h
    change (root.put k.group group).at? k = root.at? k
    rw [at?_put_group, hsame, lookup?_getD_group hfallback]
  | sets s =>
    obtain ⟨origin, hset⟩ := h
    exact ⟨origin, (at?_put_group root group k).trans hset⟩
  | other => trivial

/-- A value laid over the place at the end of a path does what it says. -/
theorem follows_set (k : SettingKey) (origin : Option String) (path : KeyPath) (d : Datum)
    (root : Setting) :
    (k.inPath path d).Follows (·.at? k) root (root.set path (ofDatum origin d)) := by
  obtain ⟨first, rest⟩ := path
  unfold SettingKey.inPath
  by_cases hfirst : Setting.key first = k.group
  · rw [if_neg fun hne => hne hfirst]
    match rest, d with
    | [], .table entries =>
      simp only [set, setAt, hfirst, ofDatum, overlay]
      exact follows_put_group rfl (follows_overlayAll k origin entries _)
    | [], .scalar s | [], .list items => trivial
    | [.entry key], d =>
      simp only [set, setAt, hfirst]
      exact follows_put_group rfl (follows_overlay k origin key d _)
    | .entry key :: step :: steps, d =>
      simp only [set, setAt, hfirst]
      split
      · trivial
      next hkey =>
        exact follows_put_group (m := .silent) rfl (lookup?_put_of_ne (Ne.symm hkey) _ _)
    | .element position :: steps, d => trivial
  · -- Another group is changed, whatever is done to it.
    rw [if_pos hfirst]
    have hother : (root.set ⟨first, rest⟩ (ofDatum origin d)).lookup? k.group =
        root.lookup? k.group := by
      cases rest with
      | nil => exact lookup?_overlay_of_ne (Ne.symm hfirst) _ root
      | cons step steps => exact lookup?_put_of_ne (Ne.symm hfirst) root _
    exact congrArg (·.bind (·.lookup? k.name)) hother

end Setting

namespace Layer

variable {layers : List Layer} {root root' : Setting}

/-- A layer that is laid over a tree does what it says as a file. -/
theorem follows_addSource {layer : Layer} (k : SettingKey)
    (h : addSource root layer = .ok root') : (filed k layer).Follows (·.at? k) root root' := by
  cases layer with
  | value key s =>
    obtain rfl : root = root' := Except.ok.inj h
    exact .refl root
  | file required content =>
    cases content with
    | error e =>
      cases required with
      | true => simp [addSource] at h
      | false =>
        obtain rfl : root = root' := Except.ok.inj h
        exact .refl root
    | ok f =>
      simp only [addSource, addFile] at h
      cases hentries : Toml.document? f.text with
      | none => simp [hentries] at h
      | some entries =>
        simp only [hentries, Except.ok.injEq] at h
        subst h
        have hmention : filed k (.file required (.ok f)) = k.inEntries entries := by
          simp [filed, SettingsFile.mention?, hentries]
        rw [hmention]
        exact .foldl _ _ entries
          (fun entry _ => Setting.follows_set k (some f.name) (pathOfKey entry.1) entry.2) root

/-- The last file that mentions a setting counts. -/
theorem follows_addSources (k : SettingKey) (h : layers.foldlM addSource root = .ok root') :
    (Mention.last (layers.map (filed k))).Follows (·.at? k) root root' := by
  induction layers using List.reverseRecOn generalizing root' with
  | nil =>
    obtain rfl : root = root' := Except.ok.inj h
    exact .refl root
  | append_singleton layers layer ih =>
    rw [List.foldlM_append] at h
    obtain ⟨middle, hfront, hback⟩ := exists_of_bind_ok h
    rw [List.foldlM_cons] at hback
    obtain ⟨after, hlast, hnil⟩ := exists_of_bind_ok hback
    obtain rfl : after = root' := Except.ok.inj hnil
    rw [List.map_append, List.map_singleton, Mention.last_concat]
    exact (ih hfront).trans (follows_addSource k hlast)

/-- The change that a value given directly stands for does what the layer says. -/
theorem follows_override {layer : Layer} {change : Option (KeyPath × Scalar)} (k : SettingKey)
    (h : override? layer = .ok change) (root : Setting) :
    (given k layer).Follows (·.at? k) root
      (change.toList.foldl (fun root (path, s) => root.set path (.single s none)) root) := by
  cases layer with
  | file required content =>
    obtain rfl : none = change := Except.ok.inj h
    exact .refl root
  | value key s =>
    simp only [override?] at h
    cases hpath : KeyPath.ofText? key.toList with
    | none => simp [hpath] at h
    | some path =>
      obtain rfl : some (path, s) = change := by simpa [hpath] using h
      have hgiven : given k (.value key s) = k.inPath path (.scalar s) := by simp [given, hpath]
      rw [hgiven]
      exact Setting.follows_set k none path (.scalar s) root

/-- The last value given directly that mentions a setting counts. -/
theorem follows_overrides {changes : List (Option (KeyPath × Scalar))} (k : SettingKey)
    (h : layers.mapM override? = .ok changes) (root : Setting) :
    (Mention.last (layers.map (given k))).Follows (·.at? k) root
      ((changes.filterMap id).foldl (fun root (path, s) => root.set path (.single s none)) root) := by
  induction layers using List.reverseRecOn generalizing changes with
  | nil =>
    obtain rfl : [] = changes := Except.ok.inj h
    exact .refl root
  | append_singleton layers layer ih =>
    rw [List.mapM_append] at h
    obtain ⟨front, hfront, h⟩ := exists_of_bind_ok h
    obtain ⟨back, hback, h⟩ := exists_of_bind_ok h
    obtain rfl : front ++ back = changes := Except.ok.inj h
    rw [List.mapM_cons] at hback
    obtain ⟨change, hlast, hback⟩ := exists_of_bind_ok hback
    obtain rfl : [change] = back := Except.ok.inj hback
    have hfilter : (front ++ [change]).filterMap id = front.filterMap id ++ change.toList := by
      cases change <;> simp
    rw [hfilter, List.foldl_append, List.map_append, List.map_singleton, Mention.last_concat]
    exact (ih hfront).trans (follows_override k hlast _)

/-- What layers make of the defaults is what they say. -/
theorem follows_tree (k : SettingKey) (h : tree layers = .ok root) :
    (mention layers k).Follows (·.at? k) defaults root := by
  obtain ⟨changes, hchanges, h⟩ := exists_of_bind_ok h
  obtain ⟨middle, hmiddle, h⟩ := exists_of_bind_ok h
  obtain rfl := Except.ok.inj h
  exact (follows_addSources k hmiddle).trans (follows_overrides k hchanges middle)

end Layer

end Descent
