import Descent.Proofs.Running
import Mathlib.Data.List.Perm.Subperm

/-!
# The runs of one rule

Of the runs of a rule a log tells where they begin and how they end. On which text a run was that ends
can be read off the events before: it is the run that has begun last of those that have not ended yet
(`pending`). Here it is followed through a log whether the rule is entered on shorter and shorter texts
only, and never again once a run of it has failed (`Follows`). Some failures do no harm: those on texts
that start with a given character, which can follow in place of what the rule reads.
-/

namespace Descent

/-- The rule that the event is about. -/
def Event.rule? : Event → Option String
  | enterRule name _ => some name
  | exitRule name _ _ => some name
  | _ => none

/-- The sizes of the texts on which a rule is entered, first to last. -/
def entered (name : String) (log : Log) : List Nat :=
  log.filterMap fun
    | .enterRule rule size => if rule = name then some size else none
    | _ => none

/-- The sizes of the texts on which a rule runs after an event, innermost first, if those are given on
which it has run before. -/
def Event.leaves (name : String) (sizes : List Nat) : Event → List Nat
  | enterRule rule size => if rule = name then size :: sizes else sizes
  | exitRule rule _ _ => if rule = name then sizes.tail else sizes
  | _ => sizes

/-- The sizes of the texts on which a rule has been entered and not been left yet, innermost first. -/
def pending (name : String) (log : Log) : List Nat := log.foldl (Event.leaves name) []

/-- No event of the log is about the rule. -/
def Quiet (name : String) (log : Log) : Prop := ∀ e ∈ log, e.rule? ≠ some name

variable {name rule : String} {log log' : Log} {e : Event}

/-- An event about something else is none of the rule. -/
theorem Event.leaves_eq (h : e.rule? ≠ some name) (sizes : List Nat) :
    e.leaves name sizes = sizes := by
  cases e with
  | enterRule rule size | exitRule rule ok consumed =>
    exact if_neg fun heq => h (congrArg some heq)
  | _ => rfl

/-- The entries in a log and those in the next follow each other. -/
theorem entered_append (name : String) (log log' : Log) :
    entered name (log ++ log') = entered name log ++ entered name log' :=
  List.filterMap_append

/-- The rule is entered. -/
theorem entered_enter (name : String) (size : Nat) (log : Log) :
    entered name (.enterRule name size :: log) = size :: entered name log := by
  simp [entered]

/-- An event that tells of a rule being left is no entry. -/
theorem entered_exit (name rule : String) (ok : Bool) (consumed : Nat) (log : Log) :
    entered name (.exitRule rule ok consumed :: log) = entered name log := by
  simp [entered]

/-- An event in two logs that follow each other is in the first or in the second. -/
theorem split_append {front back : Log} (h : log ++ log' = front ++ e :: back) :
    (∃ more, log = front ++ e :: more ∧ back = more ++ log') ∨
      ∃ more, front = log ++ more ∧ log' = more ++ e :: back := by
  rcases List.append_eq_append_iff.1 h with ⟨more, rfl, hmore⟩ | ⟨more, rfl, hmore⟩
  · exact .inr ⟨more, rfl, hmore⟩
  · cases more with
    | nil => exact .inr ⟨[], by simp, hmore.symm⟩
    | cons e' more =>
      obtain ⟨rfl, rfl⟩ := List.cons.inj hmore
      exact .inl ⟨more, rfl, rfl⟩

namespace Quiet

/-- Nothing is about a rule where nothing happens. -/
theorem nil : Quiet name [] := fun e he => by cases he

/-- A log that follows another. -/
theorem append (h : Quiet name log) (h' : Quiet name log') : Quiet name (log ++ log') :=
  fun e he => (List.mem_append.1 he).elim (h e) (h' e)

/-- The events around another rule. -/
theorem call {size consumed : Nat} {ok : Bool} (hrule : rule ≠ name) (h : Quiet name log) :
    Quiet name (.enterRule rule size :: log ++ [.exitRule rule ok consumed]) := by
  intro e he
  simp only [List.cons_append, List.mem_cons, List.mem_append, List.not_mem_nil, or_false] at he
  rcases he with rfl | he | rfl
  · exact fun heq => hrule (Option.some.inj heq)
  · exact h e he
  · exact fun heq => hrule (Option.some.inj heq)

/-- The rule is not entered. -/
theorem entered_eq_nil (h : Quiet name log) : entered name log = [] := by
  refine List.filterMap_eq_nil_iff.2 fun e he => ?_
  cases e with
  | enterRule rule size => exact if_neg fun heq => h _ he (congrArg some heq)
  | _ => rfl

/-- The runs of the rule stay as they are. -/
theorem foldl_eq (h : Quiet name log) (sizes : List Nat) :
    log.foldl (Event.leaves name) sizes = sizes := by
  induction log generalizing sizes with
  | nil => rfl
  | cons e log ih =>
    rw [List.foldl_cons, Event.leaves_eq (h e List.mem_cons_self)]
    exact ih (fun e' he' => h e' (List.mem_cons_of_mem e he')) sizes

/-- A log is not about a rule that runs at no moment. -/
theorem of_nests {fits : List String → Prop} (h : Nests fits log)
    (hfits : ∀ inner, fits inner → name ∉ inner) : Quiet name log := by
  intro e he hevent
  obtain ⟨front, back, rfl⟩ := List.append_of_mem he
  obtain ⟨before, hbefore, hfront⟩ := h.within front (List.prefix_append _ _)
  obtain ⟨after, hafter, hmore⟩ := h.within (front ++ [e]) ⟨back, by simp⟩
  -- Under a run of the rule outside of the log, there is one more after it is entered, and none after
  -- it is left.
  have heq := hmore [name]
  rw [List.foldl_append, hfront] at heq
  cases e with
  | enterRule rule size =>
    obtain rfl := Option.some.inj hevent
    have hcount := congrArg (List.count rule) heq
    simp [Event.after, List.count_eq_zero.2 (hfits _ hbefore),
      List.count_eq_zero.2 (hfits _ hafter)] at hcount
  | exitRule rule ok consumed =>
    obtain rfl := Option.some.inj hevent
    have hcount := congrArg (List.count rule) heq
    simp [Event.after, List.count_eq_zero.2 (hfits _ hbefore),
      List.count_eq_zero.2 (hfits _ hafter)] at hcount
  | _ => cases hevent

end Quiet

/-- The rule is entered on shorter and shorter end parts of the text: on at least `low` bytes, and on
less than `high`. Its failures are on end parts that start with the given character, or else, if `last`
says so, it is never entered after one. -/
structure Follows (name : String) (t : Text) (closing : Char) (last : Bool) (high low : Nat)
    (log : Log) : Prop where
  closes : ∀ sizes, log.foldl (Event.leaves name) sizes = sizes
  decreasing : (entered name log).Pairwise fun m n => n < m
  within : ∀ n ∈ entered name log, low ≤ n ∧ n < high
  fails : ∀ front consumed back, log = front ++ .exitRule name false consumed :: back →
    ∃ x : Text, x.chars <:+ t.chars ∧
      (∀ sizes, (front.foldl (Event.leaves name) sizes).head? = some x.size) ∧
      (x.chars.head? = some closing ∨ last = true ∧ entered name back = [])

namespace Follows

variable {t x : Text} {closing : Char} {last : Bool} {high low mid mid' high' low' : Nat}

/-- Nothing is asked of a log that is not about the rule. -/
theorem of_quiet (h : Quiet name log) : Follows name t closing last high low log where
  closes := h.foldl_eq
  decreasing := by rw [h.entered_eq_nil]; exact .nil
  within := by simp [h.entered_eq_nil]
  fails := by
    rintro front consumed back rfl
    exact absurd rfl (h (.exitRule name false consumed) (by simp))

/-- A log that follows the rule has no more entries than there are sizes. -/
theorem length_le (h : Follows name t closing last high low log) :
    (entered name log).length ≤ high := by
  have hnodup : (entered name log).Nodup := h.decreasing.imp fun hlt => hlt.ne'
  have hsubset : entered name log ⊆ List.range high :=
    fun n hn => List.mem_range.2 (h.within n hn).2
  simpa using (List.subperm_of_subset hnodup hsubset).length_le

/-- Less may be asked. -/
theorem mono (h : Follows name t closing last high low log) (hhigh : high ≤ high')
    (hlow : low' ≤ low) : Follows name t closing last high' low' log where
  closes := h.closes
  decreasing := h.decreasing
  within n hn := by
    obtain ⟨hle, hlt⟩ := h.within n hn
    exact ⟨hlow.trans hle, hlt.trans_le hhigh⟩
  fails := h.fails

/-- A log in which no failure does harm may be the last. -/
theorem toLast (h : Follows name t closing false high low log) :
    Follows name t closing last high low log where
  closes := h.closes
  decreasing := h.decreasing
  within := h.within
  fails front consumed back heq := by
    obtain ⟨x, hx, hsize, hclosing | ⟨hlast, _⟩⟩ := h.fails front consumed back heq
    · exact ⟨x, hx, hsize, .inl hclosing⟩
    · cases hlast

/-- Logs in which the rule is entered on longer and on shorter texts follow each other, if no failure
in the first does harm. -/
theorem append (h : Follows name t closing false high mid log)
    (h' : Follows name t closing last mid' low log') (hmid : mid' ≤ mid) (hhigh : mid' ≤ high)
    (hlow : low ≤ mid) : Follows name t closing last high low (log ++ log') where
  closes sizes := by rw [List.foldl_append, h.closes, h'.closes]
  decreasing := by
    rw [entered_append]
    refine List.pairwise_append.2 ⟨h.decreasing, h'.decreasing, fun m hm n hn => ?_⟩
    obtain ⟨hle, _⟩ := h.within m hm
    obtain ⟨_, hlt⟩ := h'.within n hn
    omega
  within n hn := by
    rw [entered_append] at hn
    rcases List.mem_append.1 hn with hn | hn
    · obtain ⟨hle, hlt⟩ := h.within n hn
      exact ⟨hlow.trans hle, hlt⟩
    · obtain ⟨hle, hlt⟩ := h'.within n hn
      exact ⟨hle, hlt.trans_le hhigh⟩
  fails front consumed back heq := by
    rcases split_append heq with ⟨more, hlog, rfl⟩ | ⟨more, rfl, hlog'⟩
    · obtain ⟨x, hx, hsize, hclosing | ⟨hlast, _⟩⟩ := h.fails front consumed more hlog
      · exact ⟨x, hx, hsize, .inl hclosing⟩
      · cases hlast
    · obtain ⟨x, hx, hsize, hfail⟩ := h'.fails more consumed back hlog'
      refine ⟨x, hx, fun sizes => ?_, hfail⟩
      rw [List.foldl_append, h.closes]
      exact hsize sizes

/-- A log that is not about the rule may follow in any case. -/
theorem append_quiet (h : Follows name t closing last high low log) (h' : Quiet name log') :
    Follows name t closing last high low (log ++ log') where
  closes sizes := by rw [List.foldl_append, h.closes, h'.foldl_eq]
  decreasing := by
    rw [entered_append, h'.entered_eq_nil, List.append_nil]
    exact h.decreasing
  within := by
    rw [entered_append, h'.entered_eq_nil, List.append_nil]
    exact h.within
  fails front consumed back heq := by
    rcases split_append heq with ⟨more, hlog, rfl⟩ | ⟨more, _, rfl⟩
    · obtain ⟨x, hx, hsize, hfail⟩ := h.fails front consumed more hlog
      refine ⟨x, hx, hsize, ?_⟩
      rw [entered_append, h'.entered_eq_nil, List.append_nil]
      exact hfail
    · exact absurd rfl (h' (.exitRule name false consumed) (by simp))

/-- A log that is not about the rule may come first in any case. -/
theorem quiet_append (h : Quiet name log) (h' : Follows name t closing last high low log') :
    Follows name t closing last high low (log ++ log') where
  closes sizes := by rw [List.foldl_append, h.foldl_eq, h'.closes]
  decreasing := by
    rw [entered_append, h.entered_eq_nil, List.nil_append]
    exact h'.decreasing
  within := by
    rw [entered_append, h.entered_eq_nil, List.nil_append]
    exact h'.within
  fails front consumed back heq := by
    rcases split_append heq with ⟨more, rfl, _⟩ | ⟨more, rfl, hlog'⟩
    · exact absurd rfl (h (.exitRule name false consumed) (by simp))
    · obtain ⟨x, hx, hsize, hfail⟩ := h'.fails more consumed back hlog'
      refine ⟨x, hx, fun sizes => ?_, hfail⟩
      rw [List.foldl_append, h.foldl_eq]
      exact hsize sizes

/-- The events around another rule change nothing. -/
theorem call {size consumed : Nat} {ok : Bool} (h : Follows name t closing last high low log)
    (hrule : rule ≠ name) : Follows name t closing last high low
      (.enterRule rule size :: log ++ [.exitRule rule ok consumed]) := by
  have hevent (e : Event) (he : e.rule? = some rule) : Quiet name [e] := by
    intro e' he'
    obtain rfl := List.mem_singleton.1 he'
    exact fun heq => hrule (Option.some.inj (he.symm.trans heq))
  exact append_quiet (quiet_append (hevent (.enterRule rule size) rfl) h) (hevent _ rfl)

/-- A run of the rule itself. If it fails, it does no harm, or is the last. -/
theorem run {consumed : Nat} {ok : Bool} (h : Follows name t closing last x.size low log)
    (hx : x.chars <:+ t.chars) (hlow : low ≤ x.size)
    (hfail : ok = false → x.chars.head? = some closing ∨ last = true) :
    Follows name t closing last (x.size + 1) low
      (.enterRule name x.size :: log ++ [.exitRule name ok consumed]) := by
  have hentered : entered name (.enterRule name x.size :: log ++ [.exitRule name ok consumed]) =
      x.size :: entered name log := by
    rw [List.cons_append, entered_enter, entered_append, entered_exit]
    simp [entered]
  have hinside (sizes : List Nat) :
      (Event.enterRule name x.size :: log).foldl (Event.leaves name) sizes = x.size :: sizes := by
    rw [List.foldl_cons, show (Event.enterRule name x.size).leaves name sizes = _ from if_pos rfl,
      h.closes]
  refine ⟨fun sizes => ?_, ?_, ?_, fun front consumed' back heq => ?_⟩
  · rw [List.foldl_append, hinside]
    exact if_pos rfl
  · rw [hentered]
    exact List.pairwise_cons.2 ⟨fun n hn => (h.within n hn).2, h.decreasing⟩
  · rw [hentered]
    intro n hn
    rcases List.mem_cons.1 hn with rfl | hn
    · exact ⟨hlow, Nat.lt_succ_self _⟩
    · obtain ⟨hle, hlt⟩ := h.within n hn
      exact ⟨hle, by omega⟩
  · rcases split_append heq with ⟨more, hlog, rfl⟩ | ⟨more, rfl, hexit⟩
    · -- The run that fails is one inside.
      cases front with
      | nil => cases hlog
      | cons e front =>
        obtain ⟨rfl, rfl⟩ := List.cons.inj hlog
        obtain ⟨y, hy, hsize, hfail⟩ := h.fails front consumed' more rfl
        refine ⟨y, hy, fun sizes => ?_, ?_⟩
        · rw [List.foldl_cons]
          exact hsize _
        · rw [entered_append, entered_exit, show entered name [] = [] from rfl, List.append_nil]
          exact hfail
    · obtain ⟨rfl, hexit⟩ := List.append_eq_singleton_iff.1 hexit.symm |>.resolve_right (by simp)
      cases hexit
      refine ⟨x, hx, fun sizes => ?_, ?_⟩
      · rw [List.append_nil, hinside]
        rfl
      · exact (hfail rfl).imp_right fun hlast => ⟨hlast, rfl⟩

end Follows

end Descent
