import Descent.Proofs.Settings.Mention

/-!
# The last layer that sets a value counts

Settings are read from one tree that all layers have made. What is read is, for each setting, the value
that was given directly last, or else the one in the last file that has one, or else the default
(`load_layered`). So a wrong name does no harm in a layer that another one covers, and the order in
which files and values are given does not matter. A required file that is not there is an error,
whatever else is given.
-/

namespace Descent

/-! ## Reading a tree -/

namespace Setting

variable {α : Type} {read : Setting → Except SettingsError α} {found : Option Setting} {a : α}
  {root s : Setting} {k : SettingKey} {origin : Option String}

/-- A setting is found in a table. -/
theorem exists_table_of_at? (h : root.at? k = some s) :
    ∃ entries origin, root.lookup? k.group = some (.table entries origin) ∧
      entries.lookup k.name = some s := by
  obtain ⟨group, hgroup, hentry⟩ := Option.bind_eq_some_iff.1 h
  cases group with
  | table entries origin => exact ⟨entries, origin, hgroup, hentry⟩
  | single v origin | list items origin => cases hentry

/-- What must be there, and is read where it is there, is there and is what is expected. -/
theorem exists_of_required {name : String} {result : Option α} (h : found.mapM read = .ok result)
    (hrequired : required name result = .ok a) : ∃ s, found = some s ∧ read s = .ok a := by
  cases found with
  | none =>
    obtain rfl : none = result := Except.ok.inj h
    cases hrequired
  | some s =>
    obtain ⟨b, hb, h⟩ := exists_of_bind_ok h
    obtain rfl : some b = result := Except.ok.inj h
    obtain rfl : b = a := Except.ok.inj hrequired
    exact ⟨s, rfl, hb⟩

/-- Settings for parsing that were read from a table were there. -/
theorem of_toParsing_table {entries : List (String × Setting)} {grammar : Builtin}
    {format : Format} {trims : Bool}
    (h : (table entries origin).toParsing = .ok (grammar, format, trims)) :
    (∃ s, entries.lookup "grammar" = some s ∧ s.toGrammar = .ok grammar) ∧
      (∃ s, entries.lookup "format" = some s ∧ s.toFormat = .ok format) ∧
      ∃ s, entries.lookup "trim_trailing_newline" = some s ∧
        s.toBool "parse.trim_trailing_newline" = .ok trims := by
  obtain ⟨g, hg, h⟩ := exists_of_bind_ok h
  obtain ⟨f, hf, h⟩ := exists_of_bind_ok h
  obtain ⟨t, ht, h⟩ := exists_of_bind_ok h
  obtain ⟨g', hg', h⟩ := exists_of_bind_ok h
  obtain ⟨f', hf', h⟩ := exists_of_bind_ok h
  obtain ⟨t', ht', h⟩ := exists_of_bind_ok h
  cases h
  exact ⟨exists_of_required hg hg', exists_of_required hf hf', exists_of_required ht ht'⟩

end Setting

/-- A value, read as what the setting expects, is what the settings have there. -/
def SettingKey.Reads (k : SettingKey) (s : Setting) (c : Settings) : Prop :=
  match k with
  | grammar => s.toGrammar = .ok c.grammar
  | format => s.toFormat = .ok c.format
  | trimsLineEnd => s.toBool "parse.trim_trailing_newline" = .ok c.trimsLineEnd
  | level => s.toText "logging.level" = .ok c.level

namespace Settings

variable {root : Setting} {c : Settings}

/-- Settings that were read from a tree have what is found there. -/
theorem reads_of_ofTree (h : ofTree root = .ok c) {k : SettingKey} {s : Setting}
    (hs : root.at? k = some s) : k.Reads s c := by
  obtain ⟨entries, origin, hgroup, hentry⟩ := Setting.exists_table_of_at? hs
  obtain ⟨parsing, hparsing, h⟩ := exists_of_bind_ok h
  obtain ⟨level, hlevel, h⟩ := exists_of_bind_ok h
  obtain ⟨⟨grammar, format, trims⟩, hparsing', h⟩ := exists_of_bind_ok h
  obtain ⟨level', hlevel', h⟩ := exists_of_bind_ok h
  cases h
  obtain ⟨parse, hparse, hread⟩ := Setting.exists_of_required hparsing hparsing'
  obtain ⟨logging, hlogging, hreadLevel⟩ := Setting.exists_of_required hlevel hlevel'
  cases k with
  | grammar =>
    cases hgroup.symm.trans hparse
    obtain ⟨s', hs', hgrammar⟩ := (Setting.of_toParsing_table hread).1
    cases hentry.symm.trans hs'
    exact hgrammar
  | format =>
    cases hgroup.symm.trans hparse
    obtain ⟨s', hs', hformat⟩ := (Setting.of_toParsing_table hread).2.1
    cases hentry.symm.trans hs'
    exact hformat
  | trimsLineEnd =>
    cases hgroup.symm.trans hparse
    obtain ⟨s', hs', htrims⟩ := (Setting.of_toParsing_table hread).2.2
    cases hentry.symm.trans hs'
    exact htrims
  | level =>
    cases hgroup.symm.trans hlogging
    obtain ⟨l, hl, hlevel'⟩ := exists_of_bind_ok hreadLevel
    obtain ⟨s', hs', hlevel⟩ := Setting.exists_of_required hl hlevel'
    cases hentry.symm.trans hs'
    exact hlevel

/-- Where all settings are found, they are read one after the other. -/
theorem ofTree_eq {found : SettingKey → Setting} (h : ∀ k, root.at? k = some (found k)) :
    ofTree root = do
      let grammar ← (found .grammar).toGrammar
      let format ← (found .format).toFormat
      let trims ← (found .trimsLineEnd).toBool "parse.trim_trailing_newline"
      let level ← (found .level).toText "logging.level"
      return ⟨grammar, format, trims, level⟩ := by
  obtain ⟨entries, origin, hparse, hgrammar⟩ := Setting.exists_table_of_at? (h .grammar)
  obtain ⟨entries', origin', hlogging, hlevel⟩ := Setting.exists_table_of_at? (h .level)
  have hgroup {k : SettingKey} (hk : k.group = "parse") :
      entries.lookup k.name = some (found k) := by
    have hfound := h k
    rw [Setting.at?, hk] at hfound
    exact (congrArg (·.bind (·.lookup? k.name)) hparse).symm.trans hfound
  have hformat := hgroup (k := .format) rfl
  have htrims := hgroup (k := .trimsLineEnd) rfl
  simp only [SettingKey.group, SettingKey.name] at hparse hgrammar hlogging hlevel hformat htrims
  simp only [ofTree, hparse, hlogging, Option.mapM_some, Setting.toParsing, Setting.toLevel,
    hgrammar, hformat, htrims, hlevel]
  cases (found .grammar).toGrammar with
  | error e => rfl
  | ok grammar =>
    cases (found .format).toFormat with
    | error e => rfl
    | ok format =>
      cases (found .trimsLineEnd).toBool "parse.trim_trailing_newline" with
      | error e => rfl
      | ok trims =>
        cases (found .level).toText "logging.level" with
        | error e => rfl
        | ok level => rfl

end Settings

/-! ## Single values -/

namespace Setting

variable {k : SettingKey} {origin : Option String} {s : Scalar} {c : Settings}

/-- A text names one of some things, in whatever case, or nothing of the kind. -/
theorem choice_text {α : Type} (kind : SettingKind) {all : List α} (nameOf : α → String)
    (hall : ∀ a, a ∈ all) (hsmall : ∀ a, key (nameOf a) = nameOf a) (word : String)
    (origin : Option String) :
    (∃ a, key word = nameOf a ∧
        (single (.text word) origin).choice kind (all.map fun a => (nameOf a, a)) = .ok a) ∨
      (∀ a, key word ≠ nameOf a) ∧
        (single (.text word) origin).choice kind (all.map fun a => (nameOf a, a)) =
          .error (.unknownName kind word) := by
  have hchoice : (single (.text word) origin).choice kind (all.map fun a => (nameOf a, a)) =
      match all.find? fun a => nameOf a == key word with
      | some a => .ok a
      | none => .error (.unknownName kind word) := by
    simp only [choice, List.find?_map, Function.comp_def, hsmall]
    cases all.find? fun a => nameOf a == key word <;> rfl
  rw [hchoice]
  cases hfind : all.find? fun a => nameOf a == key word with
  | some a =>
    have hname : (nameOf a == key word) = true :=
      List.find?_some (p := fun a => nameOf a == key word) hfind
    exact .inl ⟨a, (eq_of_beq hname).symm, rfl⟩
  | none =>
    refine .inr ⟨fun a ha => ?_, rfl⟩
    have hne := List.find?_eq_none.1 hfind a (hall a)
    exact hne (beq_iff_eq.2 ha.symm)

/-- A text names a grammar or none. -/
theorem toGrammar_text (word : String) (origin : Option String) :
    (∃ b : Builtin, key word = b.name ∧ (single (.text word) origin).toGrammar = .ok b) ∨
      (∀ b : Builtin, key word ≠ b.name) ∧
        (single (.text word) origin).toGrammar = .error (.unknownName .grammar word) := by
  refine choice_text .grammar Builtin.name (fun b => ?_) (fun b => ?_) word origin
  · cases b <;> decide
  · cases b <;> rfl

/-- A text names a format or none. -/
theorem toFormat_text (word : String) (origin : Option String) :
    (∃ f : Format, key word = f.name ∧ (single (.text word) origin).toFormat = .ok f) ∨
      (∀ f : Format, key word ≠ f.name) ∧
        (single (.text word) origin).toFormat = .error (.unknownName .format word) := by
  refine choice_text .format Format.name (fun f => ?_) (fun f => ?_) word origin
  · cases f <;> decide
  · cases f <;> rfl

end Setting

/-- The words for a truth value. -/
def truthWords : Bool → List String
  | true => ["1", "true", "on", "yes"]
  | false => ["0", "false", "off", "no"]

/-- What settings have where a single value is what counts: the grammar or format that it names, the
truth value that it stands for, or the text as which it is written. -/
def SettingKey.Means : SettingKey → Scalar → Settings → Prop
  | grammar, .text word, c => Setting.key word = c.grammar.name
  | format, .text word, c => Setting.key word = c.format.name
  | trimsLineEnd, .bool b, c => c.trimsLineEnd = b
  | trimsLineEnd, .int n, c => c.trimsLineEnd = (n != 0)
  | trimsLineEnd, .float x, c => c.trimsLineEnd = !x.isZero
  | trimsLineEnd, .text word, c => Setting.key word ∈ truthWords c.trimsLineEnd
  | level, .text t, c => c.level = t
  | level, .bool b, c => c.level = boolWord b
  | level, .int n, c => c.level = toString n
  | level, .float x, c => c.level = x.toText
  | _, _, _ => False

/-- Grammars have different names. -/
theorem Builtin.name_injective : Function.Injective Builtin.name := by
  intro b b' h
  cases b <;> cases b' <;> first | rfl | exact absurd h (by decide)

/-- Formats have different names. -/
theorem Format.name_injective : Function.Injective Format.name := by
  intro f f' h
  cases f <;> cases f' <;> first | rfl | exact absurd h (by decide)

/-- A text is read as the truth value that it is a word for, if there is one. -/
theorem Setting.toBool_text_iff {word place : String} {origin : Option String} {b : Bool} :
    (single (.text word) origin).toBool place = .ok b ↔ key word ∈ truthWords b := by
  by_cases htrue : key word ∈ ["1", "true", "on", "yes"]
  · have hfalse : key word ∉ ["0", "false", "off", "no"] := by
      intro hmem
      simp only [List.mem_cons, List.not_mem_nil, or_false] at htrue hmem
      rcases htrue with h | h | h | h <;> simp [h] at hmem
    cases b <;> simp [toBool, truthWords, htrue, hfalse]
  · by_cases hfalse : key word ∈ ["0", "false", "off", "no"] <;>
      cases b <;> simp [toBool, truthWords, htrue, hfalse]

section

variable {s : Setting} {place name : String} {kind : SettingKind}

/-- No name is complained about where a truth value is expected. -/
theorem Setting.toBool_ne_unknownName : s.toBool place ≠ .error (.unknownName kind name) := by
  unfold toBool
  cases s with
  | single v origin =>
    cases v with
    | text word =>
      by_cases htrue : key word ∈ ["1", "true", "on", "yes"] <;>
        by_cases hfalse : key word ∈ ["0", "false", "off", "no"] <;> simp [htrue, hfalse]
    | null | bool b | int n | float x => simp
  | list items origin | table entries origin => simp

/-- No name is complained about where a text is expected. -/
theorem Setting.toText_ne_unknownName : s.toText place ≠ .error (.unknownName kind name) := by
  cases s with
  | single v origin => cases v <;> simp [toText]
  | list items origin | table entries origin => simp [toText]

end

/-- Single values are read as what they mean. -/
theorem SettingKey.reads_single_iff {k : SettingKey} {s : Scalar} {origin : Option String}
    {c : Settings} : k.Reads (.single s origin) c ↔ k.Means s c := by
  cases k with
  | grammar =>
    cases s with
    | text word =>
      rcases Setting.toGrammar_text word origin with ⟨b, hb, hread⟩ | ⟨hnone, hread⟩
      · simp only [Reads, Means, hread, hb, Except.ok.injEq]
        exact Builtin.name_injective.eq_iff.symm
      · simp [Reads, Means, hread, hnone]
    | null | bool b | int n | float x => simp [Reads, Means, Setting.toGrammar, Setting.choice]
  | format =>
    cases s with
    | text word =>
      rcases Setting.toFormat_text word origin with ⟨f, hf, hread⟩ | ⟨hnone, hread⟩
      · simp only [Reads, Means, hread, hf, Except.ok.injEq]
        exact Format.name_injective.eq_iff.symm
      · simp [Reads, Means, hread, hnone]
    | null | bool b | int n | float x => simp [Reads, Means, Setting.toFormat, Setting.choice]
  | trimsLineEnd =>
    cases s with
    | text word => exact Setting.toBool_text_iff
    | null | bool b | int n | float x => simp [Reads, Means, Setting.toBool, eq_comm]
  | level => cases s <;> simp [Reads, Means, Setting.toText, eq_comm]

/-! ## Layers -/

section

variable {ε α β : Type} {items : List α}

/-- Where nothing goes wrong with any of some things, nothing goes wrong with all. -/
theorem exists_mapM_eq_ok {f : α → Except ε β} (h : ∀ a ∈ items, ∃ b, f a = .ok b) :
    ∃ bs, items.mapM f = .ok bs := by
  induction items with
  | nil => exact ⟨[], rfl⟩
  | cons a items ih =>
    obtain ⟨b, hb⟩ := h a (by simp)
    obtain ⟨bs, hbs⟩ := ih fun x hx => h x (List.mem_cons_of_mem a hx)
    refine ⟨b :: bs, ?_⟩
    rw [List.mapM_cons, hb, hbs]
    rfl

/-- Where nothing goes wrong with any of some things, nothing goes wrong where they are taken one
after the other. -/
theorem exists_foldlM_eq_ok {f : β → α → Except ε β} (h : ∀ a ∈ items, ∀ b, ∃ b', f b a = .ok b')
    (b : β) : ∃ b', items.foldlM f b = .ok b' := by
  induction items generalizing b with
  | nil => exact ⟨b, rfl⟩
  | cons a items ih =>
    obtain ⟨b', hb'⟩ := h a (by simp) b
    obtain ⟨b'', hb''⟩ := ih (fun x hx => h x (List.mem_cons_of_mem a hx)) b'
    refine ⟨b'', ?_⟩
    rw [List.foldlM_cons, hb']
    exact hb''

/-- Where nothing has gone wrong, nothing has with any of them. -/
theorem exists_of_foldlM_eq_ok {f : β → α → Except ε β} {b b' : β}
    (h : items.foldlM f b = .ok b') : ∀ a ∈ items, ∃ before after, f before a = .ok after := by
  induction items generalizing b with
  | nil => simp
  | cons a items ih =>
    rw [List.foldlM_cons] at h
    obtain ⟨next, hnext, hrest⟩ := exists_of_bind_ok h
    rintro x (_ | ⟨_, hx⟩)
    · exact ⟨b, next, hnext⟩
    · exact ih hrest x hx

end

/-- The values that can be set for a setting: texts, and truth values too where one is wanted. -/
def SettingKey.Takes : SettingKey → Scalar → Prop
  | trimsLineEnd, .bool _ => True
  | _, .text _ => True
  | _, _ => False

/-- All but truth values are texts. -/
theorem SettingKey.exists_text_of_takes {k : SettingKey} {s : Scalar} (hk : k ≠ .trimsLineEnd)
    (h : k.Takes s) : ∃ word, s = .text word := by
  cases s with
  | text word => exact ⟨word, rfl⟩
  | null | bool b | int n | float x => cases k <;> first | exact h.elim | exact absurd rfl hk

/-- The mention does nothing but set such a value, if it is not silent. -/
def SettingKey.Plain (k : SettingKey) (m : Mention) : Prop :=
  m = .silent ∨ ∃ s, k.Takes s ∧ m = .sets s

namespace SettingKey

variable {k : SettingKey} {m m' : Mention}

/-- Of two plain mentions a plain one is left. -/
theorem Plain.above (h : k.Plain m) (h' : k.Plain m') : k.Plain (m.above m') := by
  rcases h with rfl | ⟨s, hs, rfl⟩
  · exact h'
  · exact .inr ⟨s, hs, rfl⟩

/-- Of many plain mentions a plain one is left. -/
theorem Plain.last {mentions : List Mention} (h : ∀ m ∈ mentions, k.Plain m) :
    k.Plain (.last mentions) := by
  induction mentions using List.reverseRecOn with
  | nil => exact .inl rfl
  | append_singleton mentions m ih =>
    rw [Mention.last_concat]
    exact (h m (by simp)).above (ih fun m' hm' => h m' (List.mem_append_left _ hm'))

/-- The path of a setting is written in small letters. -/
theorem inPath_path (k k' : SettingKey) (s : Scalar) :
    k.inPath ⟨k'.group, [.entry k'.name]⟩ (.scalar s) = if k = k' then .sets s else .silent := by
  have hgroup : Setting.key k'.group = k'.group := by cases k' <;> rfl
  have hname : Setting.key k'.name = k'.name := by cases k' <;> rfl
  simp only [inPath, inGroup, hgroup, hname]
  cases k <;> cases k' <;> rfl

/-- The key of a setting writes its path. -/
theorem ofText?_text (k : SettingKey) :
    KeyPath.ofText? k.text.toList = some ⟨k.group, [.entry k.name]⟩ := by
  cases k <;> decide

end SettingKey

namespace Layer

/-- The layer is a file that sets values for settings, or one that is not there and need not be, or a
value for a setting. -/
def Plain : Layer → Prop
  | file _ (.ok f) => ∀ k : SettingKey, ∃ m, f.mention? k = some m ∧ k.Plain m
  | file required (.error _) => required = false
  | value key s => ∃ k : SettingKey, key = k.text ∧ k.Takes s

/-- What counts in the end for a setting: what layers say about it, or its default. -/
def effective (layers : List Layer) (k : SettingKey) : Mention :=
  (mention layers k).above (.sets k.default)

variable {layer : Layer} {layers : List Layer}

/-- A plain layer says plain things as a file. -/
theorem Plain.filed (h : layer.Plain) (k : SettingKey) : k.Plain (filed k layer) := by
  cases layer with
  | value key s => exact .inl rfl
  | file required content =>
    cases content with
    | error e => exact .inl rfl
    | ok f =>
      obtain ⟨m, hm, hplain⟩ := h k
      simpa [Layer.filed, hm] using hplain

/-- A plain layer says plain things as a value given directly. -/
theorem Plain.given (h : layer.Plain) (k : SettingKey) : k.Plain (given k layer) := by
  cases layer with
  | file required content => exact .inl rfl
  | value key s =>
    obtain ⟨k', rfl, htakes⟩ := h
    simp only [Layer.given, k'.ofText?_text, Option.map_some, Option.getD_some,
      SettingKey.inPath_path]
    split
    next heq =>
      exact .inr ⟨s, heq ▸ htakes, rfl⟩
    · exact .inl rfl

/-- In the end a value counts. -/
theorem exists_effective (h : ∀ layer ∈ layers, layer.Plain) (k : SettingKey) :
    ∃ s, k.Takes s ∧ effective layers k = .sets s := by
  have hgiven : k.Plain (.last (layers.map (Layer.given k))) :=
    .last fun m hm => by
      obtain ⟨layer, hlayer, rfl⟩ := List.mem_map.1 hm
      exact (h layer hlayer).given k
  have hfiled : k.Plain (.last (layers.map (Layer.filed k))) :=
    .last fun m hm => by
      obtain ⟨layer, hlayer, rfl⟩ := List.mem_map.1 hm
      exact (h layer hlayer).filed k
  have hdefault : k.Takes k.default := by cases k <;> trivial
  rcases hgiven.above hfiled with hsilent | ⟨s, hs, hsets⟩
  · exact ⟨k.default, hdefault, by rw [effective, mention, hsilent]; rfl⟩
  · exact ⟨s, hs, by rw [effective, mention, hsets]; rfl⟩

/-- Plain layers make a tree. -/
theorem exists_tree (h : ∀ layer ∈ layers, layer.Plain) : ∃ root, tree layers = .ok root := by
  have hchange : ∀ layer ∈ layers, ∃ change, override? layer = .ok change := by
    intro layer hlayer
    cases layer with
    | file required content => exact ⟨none, rfl⟩
    | value key s =>
      obtain ⟨k, rfl, _⟩ := h _ hlayer
      exact ⟨_, by rw [override?, k.ofText?_text]⟩
  have hsource : ∀ layer ∈ layers, ∀ root, ∃ root', addSource root layer = .ok root' := by
    intro layer hlayer root
    cases layer with
    | value key s => exact ⟨root, rfl⟩
    | file required content =>
      cases content with
      | error e =>
        obtain rfl : required = false := h _ hlayer
        exact ⟨root, rfl⟩
      | ok f =>
        obtain ⟨m, hm, _⟩ := h _ hlayer .grammar
        obtain ⟨entries, hentries, _⟩ := Option.map_eq_some_iff.1 hm
        exact ⟨_, by rw [addSource, addFile, hentries]⟩
  obtain ⟨changes, hchanges⟩ := exists_mapM_eq_ok hchange
  obtain ⟨middle, hmiddle⟩ := exists_foldlM_eq_ok hsource defaults
  simp only [tree, hchanges, hmiddle]
  exact ⟨_, rfl⟩

/-- What counts in the end is found in the tree. -/
theorem at?_of_effective {root : Setting} (h : tree layers = .ok root) {k : SettingKey}
    {s : Scalar} (hs : effective layers k = .sets s) :
    ∃ origin, root.at? k = some (.single s origin) := by
  have hdefault : (Mention.sets k.default).Follows (·.at? k) defaults defaults :=
    ⟨none, by cases k <;> rfl⟩
  have hfollows : (effective layers k).Follows (·.at? k) defaults root :=
    hdefault.trans (follows_tree k h)
  rwa [hs] at hfollows

/-- A required file that is not there is an error, whatever else is given. -/
theorem tree_ne_ok_of_missing {e : SettingsError} (h : .file true (.error e) ∈ layers)
    (root : Setting) : tree layers ≠ .ok root := by
  intro htree
  obtain ⟨changes, _, hrest⟩ := exists_of_bind_ok htree
  obtain ⟨middle, hmiddle, _⟩ := exists_of_bind_ok hrest
  obtain ⟨before, after, hsource⟩ := exists_of_foldlM_eq_ok hmiddle _ h
  simp [addSource] at hsource

end Layer

namespace Settings

variable {layers : List Layer} {c : Settings}

/-- What counts in the end for a setting is what the settings have there. -/
theorem means_of_load (h : load layers = .ok c) {k : SettingKey} {s : Scalar}
    (hs : Layer.effective layers k = .sets s) : k.Means s c := by
  obtain ⟨root, hroot, hread⟩ := exists_of_bind_ok h
  obtain ⟨origin, hfound⟩ := Layer.at?_of_effective hroot hs
  exact SettingKey.reads_single_iff.1 (reads_of_ofTree hread hfound)

/-- Plain layers are read one setting after the other. -/
theorem exists_load_eq (h : ∀ layer ∈ layers, layer.Plain) {value : SettingKey → Scalar}
    (hvalue : ∀ k, Layer.effective layers k = .sets (value k)) :
    ∃ origin : SettingKey → Option String, load layers = do
      let grammar ← (Setting.single (value .grammar) (origin .grammar)).toGrammar
      let format ← (Setting.single (value .format) (origin .format)).toFormat
      let trims ← (Setting.single (value .trimsLineEnd) (origin .trimsLineEnd)).toBool
        "parse.trim_trailing_newline"
      let level ← (Setting.single (value .level) (origin .level)).toText "logging.level"
      return ⟨grammar, format, trims, level⟩ := by
  obtain ⟨root, hroot⟩ := Layer.exists_tree h
  choose origin hfound using fun k => Layer.at?_of_effective hroot (hvalue k)
  refine ⟨origin, ?_⟩
  rw [load, hroot]
  exact ofTree_eq hfound

/-- The settings are what the values mean that count in the end. -/
theorem load_eq_ok_iff (h : ∀ layer ∈ layers, layer.Plain) {value : SettingKey → Scalar}
    (hvalue : ∀ k, Layer.effective layers k = .sets (value k)) :
    load layers = .ok c ↔ ∀ k : SettingKey, k.Means (value k) c := by
  refine ⟨fun hload k => means_of_load hload (hvalue k), fun hmeans => ?_⟩
  obtain ⟨origin, hload⟩ := exists_load_eq h hvalue
  have hreads (k : SettingKey) : k.Reads (.single (value k) (origin k)) c :=
    SettingKey.reads_single_iff.2 (hmeans k)
  have hgrammar : (Setting.single (value .grammar) (origin .grammar)).toGrammar = _ :=
    hreads .grammar
  have hformat : (Setting.single (value .format) (origin .format)).toFormat = _ := hreads .format
  have htrims : (Setting.single (value .trimsLineEnd) (origin .trimsLineEnd)).toBool _ = _ :=
    hreads .trimsLineEnd
  have hlevel : (Setting.single (value .level) (origin .level)).toText _ = _ := hreads .level
  rw [hload, hgrammar, hformat, htrims, hlevel]
  rfl

/-- There is an error about a name if one of the two names that count in the end is wrong; all other
errors are about something else. -/
theorem load_unknownName_iff (h : ∀ layer ∈ layers, layer.Plain) {value : SettingKey → Scalar}
    (hvalue : ∀ k, Layer.effective layers k = .sets (value k)) {grammar format : String}
    (hgrammar : value .grammar = .text grammar) (hformat : value .format = .text format) :
    (∃ kind name, load layers = .error (.unknownName kind name)) ↔
      (∀ b : Builtin, Setting.key grammar ≠ b.name) ∨ ∀ f : Format, Setting.key format ≠ f.name := by
  obtain ⟨origin, hload⟩ := exists_load_eq h hvalue
  rw [hgrammar, hformat] at hload
  rcases Setting.toGrammar_text grammar (origin .grammar) with ⟨b, hb, hread⟩ | ⟨hnone, hread⟩
  · rcases Setting.toFormat_text format (origin .format) with ⟨f, hf, hread'⟩ | ⟨hnone, hread'⟩
    · rw [hread, hread'] at hload
      have hrest : load layers = do
          let trims ← (Setting.single (value .trimsLineEnd) (origin .trimsLineEnd)).toBool
            "parse.trim_trailing_newline"
          let level ← (Setting.single (value .level) (origin .level)).toText "logging.level"
          return ⟨b, f, trims, level⟩ := hload
      refine ⟨?_, ?_⟩
      · rintro ⟨kind, name, hunknown⟩
        rw [hrest] at hunknown
        rcases exists_of_bind_error hunknown with htrims | ⟨trims, _, hrest⟩
        · exact absurd htrims Setting.toBool_ne_unknownName
        · rcases exists_of_bind_error hrest with hlevel | ⟨level, _, hreturn⟩
          · exact absurd hlevel Setting.toText_ne_unknownName
          · cases hreturn
      · rintro (hnone | hnone)
        · exact absurd hb (hnone b)
        · exact absurd hf (hnone f)
    · rw [hread, hread'] at hload
      exact ⟨fun _ => .inr hnone, fun _ => ⟨.format, format, hload⟩⟩
  · rw [hread] at hload
    exact ⟨fun _ => .inl hnone, fun _ => ⟨.grammar, grammar, hload⟩⟩

end Settings

namespace Settings

/-- Layers, in whatever order they are given. A required file that is not there is an error. Where all
files are there that must be, and all layers only set values for settings, a value counts in the end
for each setting: the one that was given directly last, or else the one in the last file that has one,
or else the default. The settings are just what these values mean. There is an error about a name
just if the name that counts in the end is wrong. -/
theorem load_layered (layers : List Layer) :
    (∀ e, .file true (.error e) ∈ layers → ∃ e', load layers = .error e') ∧
      ((∀ layer ∈ layers, layer.Plain) →
        ∃ grammar format level : String, ∃ trims : Scalar,
          Layer.effective layers .grammar = .sets (.text grammar) ∧
          Layer.effective layers .format = .sets (.text format) ∧
          Layer.effective layers .trimsLineEnd = .sets trims ∧
          Layer.effective layers .level = .sets (.text level) ∧
          (∀ c, load layers = .ok c ↔
            Setting.key grammar = c.grammar.name ∧ Setting.key format = c.format.name ∧
              SettingKey.trimsLineEnd.Means trims c ∧ c.level = level) ∧
          ((∃ kind name, load layers = .error (.unknownName kind name)) ↔
            (∀ b : Builtin, Setting.key grammar ≠ b.name) ∨
              ∀ f : Format, Setting.key format ≠ f.name)) := by
  refine ⟨fun e he => ?_, fun hplain => ?_⟩
  · cases hload : load layers with
    | error e' => exact ⟨e', rfl⟩
    | ok c =>
      obtain ⟨root, hroot, _⟩ := exists_of_bind_ok hload
      exact absurd hroot (Layer.tree_ne_ok_of_missing he root)
  · choose value htakes hvalue using Layer.exists_effective hplain
    have htext {k : SettingKey} (hk : k ≠ .trimsLineEnd) : ∃ word, value k = .text word :=
      SettingKey.exists_text_of_takes hk (htakes k)
    obtain ⟨grammar, hgrammar⟩ := htext (k := .grammar) (by decide)
    obtain ⟨format, hformat⟩ := htext (k := .format) (by decide)
    obtain ⟨level, hlevel⟩ := htext (k := .level) (by decide)
    refine ⟨grammar, format, level, value .trimsLineEnd, hgrammar ▸ hvalue .grammar,
      hformat ▸ hvalue .format, hvalue .trimsLineEnd, hlevel ▸ hvalue .level, fun c => ?_,
      load_unknownName_iff hplain hvalue hgrammar hformat⟩
    rw [load_eq_ok_iff hplain hvalue]
    constructor
    · intro hmeans
      have hmeansGrammar := hmeans .grammar
      have hmeansFormat := hmeans .format
      have hmeansLevel := hmeans .level
      rw [hgrammar] at hmeansGrammar
      rw [hformat] at hmeansFormat
      rw [hlevel] at hmeansLevel
      exact ⟨hmeansGrammar, hmeansFormat, hmeans .trimsLineEnd, hmeansLevel⟩
    · rintro ⟨hmeansGrammar, hmeansFormat, hmeansTrims, hmeansLevel⟩ k
      cases k with
      | grammar => exact hgrammar ▸ hmeansGrammar
      | format => exact hformat ▸ hmeansFormat
      | trimsLineEnd => exact hmeansTrims
      | level => exact hlevel ▸ hmeansLevel

/-- A grammar that is given directly, before a file that has a wrong one. Another file need not be
there, and is not. -/
def coveredLayers : List Layer :=
  [.value "parse.grammar" (.text "Assignment"),
   .file true (.ok ⟨"a.toml", "[parse]\ngrammar = \"xml\"\nformat = \"yaml\"\n".toList⟩),
   .file false (.error (.notFound "b.toml"))]

/-- The wrong grammar does no harm, and the format of the file counts. But once another file that must
be there is missing there is an error. -/
theorem load_layered_covered :
    load coveredLayers = .ok ⟨.assignment, .yaml, true, "warn"⟩ ∧
      ∃ e, load (coveredLayers ++ [.file true (.error (.notFound "c.toml"))]) = .error e := by
  have hplain : ∀ layer ∈ coveredLayers, layer.Plain := by
    intro layer hlayer
    simp only [coveredLayers, List.mem_cons, List.not_mem_nil, or_false] at hlayer
    rcases hlayer with rfl | rfl | rfl
    · exact ⟨.grammar, rfl, trivial⟩
    · intro k
      cases k with
      | grammar => exact ⟨.sets (.text "xml"), by decide +kernel, .inr ⟨.text "xml", trivial, rfl⟩⟩
      | format => exact ⟨.sets (.text "yaml"), by decide +kernel, .inr ⟨.text "yaml", trivial, rfl⟩⟩
      | trimsLineEnd | level => exact ⟨.silent, by decide +kernel, .inl rfl⟩
    · rfl
  obtain ⟨grammar, format, level, trims, hgrammar, hformat, htrims, hlevel, hload, _⟩ :=
    (load_layered coveredLayers).2 hplain
  have hgrammar' : Layer.effective coveredLayers .grammar = .sets (.text "Assignment") := by
    decide +kernel
  have hformat' : Layer.effective coveredLayers .format = .sets (.text "yaml") := by decide +kernel
  have htrims' : Layer.effective coveredLayers .trimsLineEnd = .sets (.bool true) := by
    decide +kernel
  have hlevel' : Layer.effective coveredLayers .level = .sets (.text "warn") := by decide +kernel
  cases hgrammar.symm.trans hgrammar'
  cases hformat.symm.trans hformat'
  cases htrims.symm.trans htrims'
  cases hlevel.symm.trans hlevel'
  refine ⟨(hload _).2 ⟨by decide +kernel, by decide +kernel, rfl, rfl⟩, ?_⟩
  exact (load_layered _).1 (.notFound "c.toml") (List.mem_append_right _ (List.mem_singleton_self _))

end Settings

end Descent
