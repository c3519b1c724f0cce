import Descent.Proofs.Assignment
import Descent.Proofs.CommandLine.Input
import Descent.Proofs.Settings.Layering

/-!
# What a run comes to

A command line that asks for a grammar to be run is answered in one of three ways: with the outcome of
the grammar on the input, in the format that the settings name, or with a complaint about the settings,
or with one about the input (`run_parses`). A grammar is always there, and its run always ends, so
there is no fourth. A setting has the value that an option gives, or else the one of the file that is
named, or else that of the local file, or else its default.
-/

namespace Descent

/-- The parser of JSON documents, and its rules. -/
theorem Builtin.parser_json :
    json.parser = .ok (Json.entryIn .empty, Json.builtStore .empty) := by
  have hbuild := Json.grammar_eq (Site.fresh .empty ())
  unfold parser
  simp only [build, hbuild]
  rfl

/-- The parser of assignments, and its rules. -/
theorem Builtin.parser_assignment :
    assignment.parser = .ok (Assignment.entryIn .empty, Assignment.builtStore .empty) := by
  have hbuild := Assignment.grammar_eq (Site.fresh .empty ())
  unfold parser
  simp only [build, hbuild]
  rfl

/-- A grammar that can be asked for by name is built, and its runs end. -/
theorem Builtin.exists_parser (b : Builtin) :
    ∃ p store, b.parser = .ok (p, store) ∧ ∀ t, ∃ r, store.run p t = some r := by
  cases b with
  | json =>
    refine ⟨_, _, parser_json, fun t => ?_⟩
    obtain ⟨r, hr, _⟩ := Json.exists_run_entryIn .empty t
    exact ⟨r, hr⟩
  | assignment =>
    exact ⟨_, _, parser_assignment, fun t =>
      Option.isSome_iff_exists.1 (Assignment.run_isSome .empty t)⟩

namespace Mention

/-- A first mention counts where nobody else says anything. -/
theorem last_cons (m : Mention) (mentions : List Mention) :
    last (m :: mentions) = (last mentions).above m := by
  induction mentions using List.reverseRecOn with
  | nil => exact above_silent m
  | append_singleton mentions m' ih =>
    rw [← List.cons_append, last_concat, last_concat, ih, above_assoc]

/-- Where nobody says anything, nothing is said. -/
theorem last_eq_silent {mentions : List Mention} (h : ∀ m ∈ mentions, m = silent) :
    last mentions = silent := by
  induction mentions using List.reverseRecOn with
  | nil => rfl
  | append_singleton mentions m ih =>
    rw [last_concat, h m (by simp)]
    exact ih fun m' hm' => h m' (List.mem_append_left _ hm')

/-- Where nobody says anything else, what is said counts. -/
theorem last_eq_of_mem {mentions : List Mention} {m : Mention} (hm : m ∈ mentions)
    (h : ∀ m' ∈ mentions, m' = silent ∨ m' = m) : last mentions = m := by
  induction mentions using List.reverseRecOn with
  | nil => cases hm
  | append_singleton mentions m' ih =>
    rw [last_concat]
    have hfront : ∀ x ∈ mentions, x = silent ∨ x = m := fun x hx => h x (List.mem_append_left _ hx)
    rcases h m' (by simp) with rfl | rfl
    · rcases List.mem_append.1 hm with hm | hm
      · exact ih hm hfront
      · obtain rfl := List.mem_singleton.1 hm
        exact last_eq_silent fun x hx => (hfront x hx).elim id id
    · cases m' with
      | silent => exact last_eq_silent fun x hx => (hfront x hx).elim id id
      | sets v | other => rfl

end Mention

namespace CommandLine

variable {s : Surroundings} {given : List Given} {k : SettingKey} {v : Scalar}
  {text : List Char}

/-! ## Settings -/

/-- The value that an option gives to a setting. -/
def Given.flag? (k : SettingKey) (g : Given) : Option Scalar :=
  match k, g with
  | .grammar, .grammar b => some (.text b.name)
  | .format, .format name => some (.text name)
  | _, _ => none

/-- The options for one setting are the same argument. -/
theorem Given.argument_eq_of_flag {g g' : Given} {v v' : Scalar} (h : g.flag? k = some v)
    (h' : g'.flag? k = some v') : g.argument = g'.argument := by
  have hargument {g : Given} {v : Scalar} (h : g.flag? k = some v) :
      g.argument = if k = .grammar then .grammar else .format := by
    cases k <;> cases g <;> first | rfl | cases h
  exact (hargument h).trans (hargument h').symm

/-- Where the value of a setting comes from. -/
inductive Chosen (s : Surroundings) (given : List Given) (k : SettingKey) : Scalar → Prop
  /-- From an option. -/
  | flag {g : Given} {v : Scalar} (hg : g ∈ given) (hv : g.flag? k = some v) : Chosen s given k v
  /-- From the file that is named. -/
  | named {name : String} {f : SettingsFile} {v : Scalar} (hflag : ∀ g ∈ given, g.flag? k = none)
      (hname : .config name ∈ given) (hf : settingsFile s name = .ok f)
      (hv : f.mention? k = some (.sets v)) : Chosen s given k v
  /-- From the local file, if the one that is named is silent. -/
  | here {f : SettingsFile} {v : Scalar} (hflag : ∀ g ∈ given, g.flag? k = none)
      (hnamed : ∀ name, .config name ∈ given →
        ∃ f, settingsFile s name = .ok f ∧ f.mention? k = some .silent)
      (hf : settingsFile s localSettings = .ok f) (hv : f.mention? k = some (.sets v)) :
      Chosen s given k v
  /-- The default, if both files are silent. The local one need not be there. -/
  | default (hflag : ∀ g ∈ given, g.flag? k = none)
      (hnamed : ∀ name, .config name ∈ given →
        ∃ f, settingsFile s name = .ok f ∧ f.mention? k = some .silent)
      (hlocal : ∀ f, settingsFile s localSettings = .ok f → f.mention? k = some .silent) :
      Chosen s given k k.default

/-- The layer of an argument gives the value of the option directly. -/
theorem given_of_layer? {g : Given} {layer : Layer} (h : layer? s g = some layer) :
    Layer.given k layer = match g.flag? k with
      | some v => .sets v
      | none => .silent := by
  cases g with
  | config name =>
    obtain rfl := Option.some.inj h
    cases k <;> rfl
  | grammar b =>
    obtain rfl := Option.some.inj h
    have hpath : KeyPath.ofText? "parse.grammar".toList =
        some ⟨SettingKey.grammar.group, [.entry SettingKey.grammar.name]⟩ :=
      SettingKey.ofText?_text .grammar
    simp only [Layer.given, hpath, Option.map_some, Option.getD_some, SettingKey.inPath_path]
    cases k <;> rfl
  | format name =>
    obtain rfl := Option.some.inj h
    have hpath : KeyPath.ofText? "parse.format".toList =
        some ⟨SettingKey.format.group, [.entry SettingKey.format.name]⟩ :=
      SettingKey.ofText?_text .format
    simp only [Layer.given, hpath, Option.map_some, Option.getD_some, SettingKey.inPath_path]
    cases k <;> rfl
  | path p | text t | verbose => cases h

/-- As a file, only the one that is named says anything. -/
theorem filed_of_layer? {g : Given} {layer : Layer} (h : layer? s g = some layer) :
    Layer.filed k layer = .silent ∨
      ∃ name, g = .config name ∧ layer = .file true (settingsFile s name) := by
  cases g with
  | config name => exact .inr ⟨name, rfl, (Option.some.inj h).symm⟩
  | grammar b | format name =>
    obtain rfl := Option.some.inj h
    exact .inl rfl
  | path p | text t | verbose => cases h

/-- What the layers of a run say: the options first, then the file that is named, then the local
one. -/
theorem mention_layers (s : Surroundings) (given : List Given) (k : SettingKey) :
    Layer.mention (layers s given) k =
      (Mention.last ((given.filterMap (layer? s)).map (Layer.given k))).above
        ((Mention.last ((given.filterMap (layer? s)).map (Layer.filed k))).above
          (Layer.filed k (.file false (settingsFile s localSettings)))) := by
  have hlocal : Layer.given k (.file false (settingsFile s localSettings)) = .silent := rfl
  rw [Layer.mention, layers, List.map_cons, List.map_cons, Mention.last_cons, Mention.last_cons,
    hlocal, Mention.above_silent]

/-- An option says what value it gives. -/
theorem last_given_of_flag (h : Agrees given) {g : Given} (hg : g ∈ given)
    (hv : g.flag? k = some v) :
    Mention.last ((given.filterMap (layer? s)).map (Layer.given k)) = .sets v := by
  refine Mention.last_eq_of_mem ?_ ?_
  · obtain ⟨layer, hlayer⟩ : ∃ layer, layer? s g = some layer := by
      cases g with
      | path p | text t | verbose => cases k <;> cases hv
      | grammar b | format name | config name => exact ⟨_, rfl⟩
    refine List.mem_map.2 ⟨layer, List.mem_filterMap.2 ⟨g, hg, hlayer⟩, ?_⟩
    rw [given_of_layer? hlayer, hv]
  · intro m hm
    obtain ⟨layer, hlayer, rfl⟩ := List.mem_map.1 hm
    obtain ⟨g', hg', hlayer⟩ := List.mem_filterMap.1 hlayer
    rw [given_of_layer? hlayer]
    cases hv' : g'.flag? k with
    | none => exact .inl rfl
    | some v' =>
      obtain rfl := List.inj_on_of_nodup_map h.nodup hg' hg (Given.argument_eq_of_flag hv' hv)
      exact .inr (congrArg Mention.sets (Option.some.inj (hv'.symm.trans hv)))

/-- Where no option gives a value, the options say nothing. -/
theorem last_given_of_no_flag (hflag : ∀ g ∈ given, g.flag? k = none) :
    Mention.last ((given.filterMap (layer? s)).map (Layer.given k)) = .silent := by
  refine Mention.last_eq_silent fun m hm => ?_
  obtain ⟨layer, hlayer, rfl⟩ := List.mem_map.1 hm
  obtain ⟨g, hg, hlayer⟩ := List.mem_filterMap.1 hlayer
  rw [given_of_layer? hlayer, hflag g hg]

/-- The file that is named says what stands in it. -/
theorem last_filed_of_config (h : Agrees given) {name : String} (hname : .config name ∈ given)
    {f : SettingsFile} (hf : settingsFile s name = .ok f) {m : Mention}
    (hm : f.mention? k = some m) :
    Mention.last ((given.filterMap (layer? s)).map (Layer.filed k)) = m := by
  have hfiled : Layer.filed k (.file true (settingsFile s name)) = m := by
    rw [hf]
    simp [Layer.filed, hm]
  refine Mention.last_eq_of_mem ?_ ?_
  · exact List.mem_map.2 ⟨_, List.mem_filterMap.2 ⟨.config name, hname, rfl⟩, hfiled⟩
  · intro m' hm'
    obtain ⟨layer, hlayer, rfl⟩ := List.mem_map.1 hm'
    obtain ⟨g, hg, hlayer⟩ := List.mem_filterMap.1 hlayer
    rcases filed_of_layer? hlayer with hsilent | ⟨name', rfl, rfl⟩
    · exact .inl hsilent
    · cases List.inj_on_of_nodup_map h.nodup hg hname rfl
      exact .inr hfiled

/-- If the file that is named is silent, or none is, the files that are named say nothing. -/
theorem last_filed_of_silent (hnamed : ∀ name, .config name ∈ given →
    ∃ f, settingsFile s name = .ok f ∧ f.mention? k = some .silent) :
    Mention.last ((given.filterMap (layer? s)).map (Layer.filed k)) = .silent := by
  refine Mention.last_eq_silent fun m hm => ?_
  obtain ⟨layer, hlayer, rfl⟩ := List.mem_map.1 hm
  obtain ⟨g, hg, hlayer⟩ := List.mem_filterMap.1 hlayer
  rcases filed_of_layer? (k := k) hlayer with hsilent | ⟨name, rfl, rfl⟩
  · exact hsilent
  · obtain ⟨f, hf, hmention⟩ := hnamed name hg
    rw [hf]
    simp [Layer.filed, hmention]

/-- What is chosen for a setting counts in the end. -/
theorem Chosen.effective (hchosen : Chosen s given k v) (h : Agrees given) :
    Layer.effective (layers s given) k = .sets v := by
  rw [Layer.effective, mention_layers]
  cases hchosen with
  | flag hg hv =>
    rw [last_given_of_flag h hg hv]
    rfl
  | named hflag hname hf hv =>
    rw [last_given_of_no_flag hflag, last_filed_of_config h hname hf hv]
    rfl
  | here hflag hnamed hf hv =>
    rw [last_given_of_no_flag hflag, last_filed_of_silent hnamed, hf]
    simp [Layer.filed, hv, Mention.above]
  | default hflag hnamed hlocal =>
    have hsilent : Layer.filed k (.file false (settingsFile s localSettings)) = .silent := by
      cases hf : settingsFile s localSettings with
      | ok f => simp [Layer.filed, hlocal f hf]
      | error e => rfl
    rw [last_given_of_no_flag hflag, last_filed_of_silent hnamed, hsilent]
    rfl

/-- A file is found under the name itself first. -/
theorem settingsFile_of_fileText {name : String} (hfile : s.isFile name = true)
    (h : s.fileText name = .ok text) : settingsFile s name = .ok ⟨plainPath name, text⟩ := by
  simp only [settingsFile, settingsPaths, firstFile?, hfile, if_true, h, Option.getD_some]

/-- A file that is stored at no path that its name stands for is not found. -/
theorem settingsFile_of_missing {name : String}
    (hmissing : ∀ path ∈ settingsPaths s.folder name, s.isFile path = true →
      ∃ e, s.file path = .error e ∧ e.meansNoFile = true) :
    settingsFile s name = .error (.notFound name) := by
  have hfirst : ∀ paths, (∀ path ∈ paths, s.isFile path = true →
      ∃ e, s.file path = .error e ∧ e.meansNoFile = true) → firstFile? s paths = none := by
    intro paths hpaths
    induction paths with
    | nil => rfl
    | cons path paths ih =>
      have hrest := ih fun p hp => hpaths p (List.mem_cons_of_mem path hp)
      rw [firstFile?]
      split
      next hfile =>
        obtain ⟨e, he, hno⟩ := hpaths path List.mem_cons_self hfile
        have htext : s.fileText path = .error e := by
          rw [Surroundings.fileText, he]
          rfl
        simpa [htext, hno] using hrest
      · exact hrest
  rw [settingsFile, hfirst _ hmissing]
  rfl

/-- A file that is named and not there is an error, whatever else is given. -/
theorem load_ne_ok_of_missing {name : String} (hname : .config name ∈ given)
    (hmissing : ∀ path ∈ settingsPaths s.folder name, s.isFile path = true →
      ∃ e, s.file path = .error e ∧ e.meansNoFile = true)
    (settings : Settings) : Settings.load (layers s given) ≠ .ok settings := by
  have hlayer : .file true (.error (.notFound name)) ∈ layers s given :=
    List.mem_cons_of_mem _ (List.mem_filterMap.2
      ⟨.config name, hname, by rw [layer?, settingsFile_of_missing hmissing]⟩)
  intro hload
  obtain ⟨root, hroot, _⟩ := exists_of_bind_ok hload
  exact Layer.tree_ne_ok_of_missing hlayer root hroot

/-- Where files only set values for settings, one is chosen for each setting. -/
theorem exists_chosen (h : ∀ layer ∈ layers s given, layer.Plain) (k : SettingKey) :
    ∃ v, Chosen s given k v := by
  by_cases hflag : ∀ g ∈ given, g.flag? k = none
  · by_cases hnamed : ∃ name f v, .config name ∈ given ∧ settingsFile s name = .ok f ∧
        f.mention? k = some (.sets v)
    · obtain ⟨name, f, v, hname, hf, hv⟩ := hnamed
      exact ⟨v, .named hflag hname hf hv⟩
    · have hsilent : ∀ name, .config name ∈ given →
          ∃ f, settingsFile s name = .ok f ∧ f.mention? k = some .silent := by
        intro name hname
        have hplain : Layer.Plain (.file true (settingsFile s name)) :=
          h _ (List.mem_cons_of_mem _ (List.mem_filterMap.2 ⟨.config name, hname, rfl⟩))
        cases hf : settingsFile s name with
        | error e =>
          rw [hf] at hplain
          cases hplain
        | ok f =>
          rw [hf] at hplain
          obtain ⟨m, hm, rfl | ⟨v, _, rfl⟩⟩ := hplain k
          · exact ⟨f, rfl, hm⟩
          · exact absurd ⟨name, f, v, hname, hf, hm⟩ hnamed
      by_cases hhere : ∃ f v, settingsFile s localSettings = .ok f ∧ f.mention? k = some (.sets v)
      · obtain ⟨f, v, hf, hv⟩ := hhere
        exact ⟨v, .here hflag hsilent hf hv⟩
      · refine ⟨_, .default hflag hsilent fun f hf => ?_⟩
        have hplain : Layer.Plain (.file false (settingsFile s localSettings)) :=
          h _ List.mem_cons_self
        rw [hf] at hplain
        obtain ⟨m, hm, rfl | ⟨v, _, rfl⟩⟩ := hplain k
        · exact hm
        · exact absurd ⟨f, v, hf, hm⟩ hhere
  · obtain ⟨g, hg⟩ := not_forall.1 hflag
    obtain ⟨hg, hne⟩ := Classical.not_imp.1 hg
    obtain ⟨v, hv⟩ := Option.ne_none_iff_exists'.1 hne
    exact ⟨v, .flag hg hv⟩

/-! ## Runs -/

/-- The report of a run whose settings and input are there; `runIn` is how parsers run. Said for any
way to run them, it can be unfolded without following a run. -/
def answer (runIn : Store → Parser → Text → Option Run) (settings : Settings) (text : List Char) :
    Report :=
  match settings.grammar.parser with
  | .error e => .failed ("Grammar error: " ++ e.message ++ "\n")
  | .ok (p, store) =>
    match runIn store p (.ofList text) with
    | none => .failed "Grammar error: the run does not end\n"
    | some r => ⟨if r.outcome.ok then 0 else 1, settings.format.render r.outcome, []⟩

/-- A run reads the settings, then the input, and answers. -/
theorem parse_eq (s : Surroundings) (given : List Given) : parse s given =
    match Settings.load (layers s given) with
    | .error e => .failed ("Configuration error: " ++ e.message ++ "\n")
    | .ok settings =>
      match input s given settings.trimsLineEnd with
      | .error e => .failed ("Error reading input: " ++ e.message ++ "\n")
      | .ok text => answer Store.run settings text :=
  rfl

/-- The answer is what the grammar of the settings says about the input. -/
theorem answer_eq {runIn : Store → Parser → Text → Option Run} {settings : Settings} {p : Parser}
    {store : Store} {r : Run} (hparser : settings.grammar.parser = .ok (p, store))
    (hrun : runIn store p (.ofList text) = some r) : answer runIn settings text =
      ⟨if r.outcome.ok then 0 else 1, settings.format.render r.outcome, []⟩ := by
  simp only [answer, hparser, hrun]

/-- No text is given, and the bytes that are to be read are not there or write no text. -/
def Unreadable (s : Surroundings) (given : List Given) : Prop :=
  (∀ t, .text t ∉ given) ∧ ∀ whole : List Char, ¬Source s given (.ok whole.utf8Encode)

/-- Only then there is no input. -/
theorem unreadable_of_input (h : Agrees given) {trims : Bool} {e : ReadError}
    (hinput : input s given trims = .error e) : Unreadable s given := by
  have hno : ∀ text, ¬Input s given trims text := fun text htext => by
    rw [(input_eq_ok_iff h).2 htext] at hinput
    cases hinput
  refine ⟨fun t ht => hno t.toList (.given ht rfl), fun whole hbytes => ?_⟩
  have hnone : ∀ t, .text t ∉ given := fun t ht => hno t.toList (.given ht rfl)
  cases trims with
  | true => exact hno _ (.read hnone hbytes (dropFinalLineEnd_eq_iff.1 rfl))
  | false => exact hno whole (.read hnone hbytes rfl)

/-- What is unreadable is no input. -/
theorem Unreadable.not_input (h : Unreadable s given) {trims : Bool} : ¬Input s given trims text := by
  rintro (⟨ht, _⟩ | ⟨_, hbytes, _⟩)
  · exact h.1 _ ht
  · exact h.2 _ hbytes

/-- How a run can end. -/
inductive Reported (s : Surroundings) (given : List Given) : Report → Prop
  /-- The outcome of the grammar on the input is shown, and the status tells whether the grammar has
  accepted it. -/
  | shown {settings : Settings} {text : List Char} {p : Parser} {store : Store} {r : Run}
      (hsettings : Settings.load (layers s given) = .ok settings)
      (htext : Input s given settings.trimsLineEnd text)
      (hparser : settings.grammar.parser = .ok (p, store))
      (hrun : store.run p (.ofList text) = some r) :
      Reported s given
        ⟨if r.outcome.ok then 0 else 1, settings.format.render r.outcome, []⟩
  /-- The settings are complained about. -/
  | badSettings (hsettings : ∀ settings, Settings.load (layers s given) ≠ .ok settings)
      (complaint : String) : Reported s given (.failed complaint)
  /-- The settings are right, and the input is complained about. -/
  | badInput {settings : Settings} (hsettings : Settings.load (layers s given) = .ok settings)
      (hinput : Unreadable s given) (complaint : String) : Reported s given (.failed complaint)

/-- A run ends in one of these ways. -/
theorem reported_parse (h : Agrees given) : Reported s given (parse s given) := by
  rw [parse_eq]
  cases hload : Settings.load (layers s given) with
  | error e => exact .badSettings (fun settings hok => by rw [hok] at hload; cases hload) _
  | ok settings =>
    dsimp only
    cases htext : input s given settings.trimsLineEnd with
    | error e => exact .badInput hload (unreadable_of_input h htext) _
    | ok text =>
      obtain ⟨p, store, hparser, hends⟩ := settings.grammar.exists_parser
      obtain ⟨r, hrun⟩ := hends (.ofList text)
      dsimp only
      rw [answer_eq hparser hrun]
      exact .shown hload ((input_eq_ok_iff h).1 htext) hparser hrun

/-- The status is two just if the settings are wrong or the input is unreadable. -/
theorem Reported.status_eq_two_iff {report : Report} (h : Reported s given report) :
    report.status = 2 ↔
      (∀ settings, Settings.load (layers s given) ≠ .ok settings) ∨ Unreadable s given := by
  cases h with
  | @shown settings text p store r hsettings htext hparser hrun =>
    have hstatus : (if r.outcome.ok then 0 else 1) ≠ 2 := by split <;> decide
    refine ⟨fun htwo => absurd htwo hstatus, ?_⟩
    rintro (hbad | hinput)
    · exact absurd hsettings (hbad settings)
    · exact absurd htext hinput.not_input
  | badSettings hsettings complaint => exact ⟨fun _ => .inl hsettings, fun _ => rfl⟩
  | badInput hsettings hinput complaint => exact ⟨fun _ => .inr hinput, fun _ => rfl⟩

/-- Where the status is two, nothing is shown. -/
theorem Reported.output_of_status {report : Report} (h : Reported s given report)
    (htwo : report.status = 2) : report.output = [] := by
  cases h with
  | @shown settings text p store r hsettings htext hparser hrun =>
    have hstatus : (if r.outcome.ok then 0 else 1) ≠ 2 := by split <;> decide
    exact absurd htwo hstatus
  | badSettings hsettings complaint | badInput hsettings hinput complaint => rfl

/-- The arguments without the one that asks for more to be logged. -/
def withoutVerbose (given : List Given) : List Given := given.filter fun g => g ≠ .verbose

/-- What makes nothing of that argument makes the same of the others. -/
theorem filterMap_withoutVerbose {α : Type} {f : Given → Option α} (hf : f .verbose = none)
    (given : List Given) : (withoutVerbose given).filterMap f = given.filterMap f := by
  rw [withoutVerbose, List.filterMap_filter]
  congr 1
  funext g
  by_cases hg : g = .verbose
  · simp [hg, hf]
  · simp [hg]

/-- The argument that asks for more to be logged changes nothing but what is logged. -/
theorem parse_withoutVerbose (s : Surroundings) (given : List Given) :
    parse s (withoutVerbose given) = parse s given := by
  have hlayers : layers s (withoutVerbose given) = layers s given := by
    rw [layers, layers, filterMap_withoutVerbose rfl]
  have hfind {α : Type} {f : Given → Option α} (hf : f .verbose = none) :
      (withoutVerbose given).findSome? f = given.findSome? f := by
    rw [← List.head?_filterMap, ← List.head?_filterMap, filterMap_withoutVerbose hf]
  have htext : text? (withoutVerbose given) = text? given := hfind rfl
  have hpath : path? (withoutVerbose given) = path? given := hfind rfl
  have hinput (trims : Bool) : input s (withoutVerbose given) trims = input s given trims := by
    simp only [input, htext, hpath]
  simp only [parse_eq, hlayers, hinput]

/-- Where the settings differ only in what is logged, and the input is the same, so is
the report. -/
theorem answer_level (runIn : Store → Parser → Text → Option Run) (settings : Settings)
    (level : String) (text : List Char) :
    answer runIn { settings with level := level } text = answer runIn settings text :=
  rfl

/-- Where settings differ only in that, the answers to the same input are the same. -/
theorem parse_of_level {s' : Surroundings} {given' : List Given} {settings : Settings} {level : String}
    (hload : Settings.load (layers s given) = .ok settings)
    (hload' : Settings.load (layers s' given') = .ok { settings with level := level })
    (hinput : input s' given' settings.trimsLineEnd = input s given settings.trimsLineEnd) :
    parse s' given' = parse s given := by
  rw [parse_eq, parse_eq, hload, hload']
  dsimp only
  rw [hinput]
  cases input s given settings.trimsLineEnd with
  | error e => rfl
  | ok text => exact answer_level Store.run settings level text

/-- A command line that asks for a grammar to be run has it run. -/
theorem run_eq_parse {words : List String} (hread : Request.read words = .ok (.parse given)) :
    run s words = parse s given := by
  simp only [run, hread, perform]

/-- Files that only set values for settings make them right just if all that is chosen means
something. -/
theorem exists_chosen_load_iff (h : Agrees given) (hplain : ∀ layer ∈ layers s given, layer.Plain) :
    ∃ value : SettingKey → Scalar, (∀ k, Chosen s given k (value k)) ∧
      ∀ settings, Settings.load (layers s given) = .ok settings ↔
        ∀ k : SettingKey, k.Means (value k) settings := by
  choose value hvalue using exists_chosen hplain
  exact ⟨value, hvalue, fun settings =>
    Settings.load_eq_ok_iff hplain fun k => (hvalue k).effective h⟩

/-- What is true of the report of a run. -/
structure Answers (s : Surroundings) (given : List Given) (report : Report) : Prop where
  /-- The report is the outcome of the grammar on the input, or a complaint. -/
  reported : Reported s given report
  /-- The status is two just if the settings are wrong or the input is unreadable. -/
  status_eq_two_iff : report.status = 2 ↔
    (∀ settings, Settings.load (layers s given) ≠ .ok settings) ∨ Unreadable s given
  /-- Where the status is two, nothing is shown. -/
  output_of_status : report.status = 2 → report.output = []
  /-- The settings are what is chosen for them. -/
  means_of_chosen : ∀ settings, Settings.load (layers s given) = .ok settings →
    ∀ k v, Chosen s given k v → k.Means v settings
  /-- The settings are wrong if a file is named that is not there. -/
  load_of_missing : ∀ name, .config name ∈ given →
    (∀ path ∈ settingsPaths s.folder name, s.isFile path = true →
      ∃ e, s.file path = .error e ∧ e.meansNoFile = true) →
    ∀ settings, Settings.load (layers s given) ≠ .ok settings
  /-- Where files only set values for settings, something is chosen for each setting, and the settings
  are right just if all that is chosen means something. -/
  load_iff : (∀ layer ∈ layers s given, layer.Plain) → ∃ value : SettingKey → Scalar,
    (∀ k, Chosen s given k (value k)) ∧
    ∀ settings, Settings.load (layers s given) = .ok settings ↔
      ∀ k : SettingKey, k.Means (value k) settings
  /-- The report is the same without the argument that asks for more to be logged. -/
  withoutVerbose : report = parse s (withoutVerbose given)
  /-- The report is the same wherever the settings differ only in what is logged, if the input is the
  same. -/
  ofLevel : ∀ s' given' settings level, Settings.load (layers s given) = .ok settings →
    Settings.load (layers s' given') = .ok { settings with level := level } →
    input s' given' settings.trimsLineEnd = input s given settings.trimsLineEnd →
    parse s' given' = report

/-- A command line that asks for a grammar to be run is answered with the outcome of the grammar on the
input, or with a complaint about the settings or the input. -/
theorem run_parses {words : List String} (hread : Request.read words = .ok (.parse given))
    (s : Surroundings) : Answers s given (run s words) := by
  have hagrees : Agrees given := Request.agrees_of_read hread
  rw [run_eq_parse hread]
  have hreported := reported_parse (s := s) hagrees
  exact {
    reported := hreported
    status_eq_two_iff := hreported.status_eq_two_iff
    output_of_status := hreported.output_of_status
    means_of_chosen := fun settings hload k v hchosen =>
      Settings.means_of_load hload (hchosen.effective hagrees)
    load_of_missing := fun name hname hmissing => load_ne_ok_of_missing hname hmissing
    load_iff := exists_chosen_load_iff hagrees
    withoutVerbose := (parse_withoutVerbose s given).symm
    ofLevel := fun s' given' settings level => parse_of_level }

/-- A command line that names a file of settings. -/
def namingWords : List String := ["parse", "-v", "--config", "a.toml"]

/-- What it gives to the run. -/
def namingGiven : List Given := [.verbose, .config "a.toml"]

/-- What stands in the file. -/
def namedText : String := "[parse]\ngrammar = \"assignment\"\n"

/-- What stands in the local file. -/
def localText : String := "[parse]\ngrammar = \"xml\"\nformat = \"yaml\"\n"

/-- A place where both files are, and an assignment is written with a line end. -/
def namingSurroundings : Surroundings where
  input := "a = 1\r\n".toUTF8
  file path := .ok (if path = "a.toml" then namedText else localText).toUTF8
  isFile _ := true
  folder := none

/-- A place with nothing in it but bytes that write no text. -/
def emptySurroundings : Surroundings where
  input := ⟨#[255]⟩
  file _ := .error .missing
  isFile _ := false
  folder := none

/-- What the file that is named says. -/
theorem mention_namedText (path : String) (k : SettingKey) :
    SettingsFile.mention? ⟨path, namedText.toList⟩ k =
      some (if k = .grammar then .sets (.text "assignment") else .silent) := by
  change (Toml.document? namedText.toList).map k.inEntries = _
  cases k <;> decide +kernel

/-- What the local file says. -/
theorem mention_localText (path : String) (k : SettingKey) :
    SettingsFile.mention? ⟨path, localText.toList⟩ k = some (match k with
      | .grammar => .sets (.text "xml")
      | .format => .sets (.text "yaml")
      | .trimsLineEnd | .level => .silent) := by
  change (Toml.document? localText.toList).map k.inEntries = _
  cases k <;> decide +kernel

/-- The grammar is that of the file that is named, and the format that of the local file. -/
theorem load_naming : Settings.load (layers namingSurroundings namingGiven) =
    .ok ⟨.assignment, .yaml, true, "warn"⟩ := by
  have hagrees : Agrees namingGiven := Request.agrees_of_read (show
    Request.read namingWords = _ from rfl)
  have hnamed : settingsFile namingSurroundings "a.toml" =
      .ok ⟨plainPath "a.toml", namedText.toList⟩ := settingsFile_of_fileText rfl (by cbv)
  have hlocal : settingsFile namingSurroundings localSettings =
      .ok ⟨plainPath localSettings, localText.toList⟩ := settingsFile_of_fileText rfl (by cbv)
  have heffective (k : SettingKey) :
      Layer.effective (layers namingSurroundings namingGiven) k = .sets (match k with
        | .grammar => .text "assignment"
        | .format => .text "yaml"
        | .trimsLineEnd => .bool true
        | .level => .text "warn") := by
    rw [Layer.effective, mention_layers, hlocal, namingGiven]
    simp only [List.filterMap, layer?, hnamed, List.map, Layer.filed, mention_namedText,
      mention_localText]
    cases k <;> rfl
  have hplain : ∀ layer ∈ layers namingSurroundings namingGiven, layer.Plain := by
    intro layer hlayer
    simp only [layers, namingGiven, List.filterMap, layer?, hnamed, hlocal, List.mem_cons,
      List.not_mem_nil, or_false] at hlayer
    rcases hlayer with rfl | rfl
    · intro k
      refine ⟨_, mention_localText _ k, ?_⟩
      cases k with
      | grammar => exact .inr ⟨.text "xml", trivial, rfl⟩
      | format => exact .inr ⟨.text "yaml", trivial, rfl⟩
      | trimsLineEnd | level => exact .inl rfl
    · intro k
      refine ⟨_, mention_namedText _ k, ?_⟩
      cases k with
      | grammar => exact .inr ⟨.text "assignment", trivial, rfl⟩
      | format | trimsLineEnd | level => exact .inl rfl
  refine (Settings.load_eq_ok_iff hplain heffective).2 fun k => ?_
  cases k with
  | grammar => exact (by decide +kernel : Setting.key "assignment" = Builtin.assignment.name)
  | format => exact (by decide +kernel : Setting.key "yaml" = Format.yaml.name)
  | trimsLineEnd | level => rfl

/-- The assignment is accepted where the files are there. Where they are missing, nothing comes of the
run and nothing is shown. -/
theorem run_parses_naming : Request.read namingWords = .ok (.parse namingGiven) ∧
    (run namingSurroundings namingWords).status = 0 ∧
      (run emptySurroundings namingWords).status = 2 ∧
      (run emptySurroundings namingWords).output = [] := by
  have hread : Request.read namingWords = .ok (.parse namingGiven) := rfl
  have hmissing := run_parses hread emptySurroundings
  refine ⟨hread, ?_, ?_⟩
  · obtain ⟨l, hstep⟩ : ∃ l, (Assignment.builtStore .empty).step 3 (Assignment.entryIn .empty)
        (.ofList "a = 1".toList) = some ⟨.success "a = 1".toList (.ofList []), l⟩ := ⟨_, rfl⟩
    have hinput : input namingSurroundings namingGiven true = .ok "a = 1".toList := by cbv
    have hdepth := (Assignment.builtStore .empty).le_depthFor (.ofList "a = 1".toList)
    have hrun : (Assignment.builtStore .empty).run (Assignment.entryIn .empty)
        (.ofList "a = 1".toList) = some _ := Store.step_mono (by omega) hstep
    have hparser : (⟨.assignment, .yaml, true, "warn"⟩ : Settings).grammar.parser = _ :=
      Builtin.parser_assignment
    rw [run_eq_parse hread, parse_eq, load_naming]
    dsimp only
    rw [hinput]
    dsimp only
    rw [answer_eq hparser hrun]
    rfl
  · have htwo : (run emptySurroundings namingWords).status = 2 := by
      refine hmissing.status_eq_two_iff.2 (.inl (hmissing.load_of_missing "a.toml" ?_ ?_))
      · exact List.mem_cons_of_mem _ List.mem_cons_self
      · exact fun path _ _ => ⟨.missing, rfl, rfl⟩
    exact ⟨htwo, hmissing.output_of_status htwo⟩

end CommandLine

end Descent
