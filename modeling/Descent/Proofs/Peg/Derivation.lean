import Descent.Parser.Basic

/-!
# Parsing expressions and their derivations

A parsing expression is built from characters, sequences, ordered choices, loops and rules. What it
does to a text is a derivation: it consumes a front part of the text, or fails. A derivation of a
loop tries the body again after every part that it has consumed; the relation can be asked to let a
loop end without another try where nothing is left. Either way a text has at most one result
(`Derives.unique`).
-/

namespace Descent

/-- A parsing expression. -/
inductive Peg
  /-- The empty text. -/
  | epsilon
  /-- The end of the text. -/
  | finish
  /-- One character of a kind. -/
  | char (accept : Char → Bool)
  /-- What a function finds, which tells the rest of the text. -/
  | oracle (find : List Char → Option (List Char))
  /-- One after the other. -/
  | seq (a b : Peg)
  /-- The first of two, or else the second. -/
  | choice (a b : Peg)
  /-- Any number of times in a row. -/
  | star (body : Peg)
  /-- A rule. -/
  | rule (id : RuleId)

namespace Peg

/-- The expression that fails everywhere. -/
def never : Peg := oracle fun _ => none

/-- A given text. -/
def literal (text : List Char) : Peg := text.foldr (fun c rest => seq (char (· = c)) rest) epsilon

/-- A fixed number of times in a row. -/
def power (body : Peg) : Nat → Peg
  | 0 => epsilon
  | count + 1 => seq body (power body count)

/-- `Derives rules early e t (some x)`: on the text `t` the expression `e` consumes `x`. `Derives
rules early e t none`: it fails. Rules mean what `rules` says, and `early` is whether a loop may end
without another try where nothing is left. -/
inductive Derives (rules : RuleId → Peg) (early : Prop) :
    Peg → List Char → Option (List Char) → Prop
  | epsilon (t) : Derives rules early .epsilon t (some [])
  | finish : Derives rules early .finish [] (some [])
  | unfinished (c t) : Derives rules early .finish (c :: t) none
  | char {accept c} (t) (hc : accept c = true) :
      Derives rules early (.char accept) (c :: t) (some [c])
  | charOther {accept c} (t) (hc : accept c = false) :
      Derives rules early (.char accept) (c :: t) none
  | charNone (accept) : Derives rules early (.char accept) [] none
  | oracle {find t x rest} (hfind : find t = some rest) (ht : t = x ++ rest) :
      Derives rules early (.oracle find) t (some x)
  | oracleFails {find t} (hfind : find t = none) : Derives rules early (.oracle find) t none
  | seq {a b t x rest y} (ha : Derives rules early a t (some x)) (ht : t = x ++ rest)
      (hb : Derives rules early b rest (some y)) :
      Derives rules early (.seq a b) t (some (x ++ y))
  | seqFails {a t} (b) (ha : Derives rules early a t none) :
      Derives rules early (.seq a b) t none
  | seqFailsLate {a b t x rest} (ha : Derives rules early a t (some x)) (ht : t = x ++ rest)
      (hb : Derives rules early b rest none) : Derives rules early (.seq a b) t none
  | choiceFirst {a t x} (b) (ha : Derives rules early a t (some x)) :
      Derives rules early (.choice a b) t (some x)
  | choiceSecond {a b t o} (ha : Derives rules early a t none)
      (hb : Derives rules early b t o) : Derives rules early (.choice a b) t o
  | starStop {body t} (hbody : Derives rules early body t none) :
      Derives rules early (.star body) t (some [])
  | starStill {body t} (hbody : Derives rules early body t (some [])) :
      Derives rules early (.star body) t (some [])
  | starMore {body t x rest y} (hbody : Derives rules early body t (some x)) (hx : x ≠ [])
      (ht : t = x ++ rest) (hrest : Derives rules early (.star body) rest (some y)) :
      Derives rules early (.star body) t (some (x ++ y))
  | starEnd (hearly : early) (body) : Derives rules early (.star body) [] (some [])
  | rule {id t o} (hrule : Derives rules early (rules id) t o) :
      Derives rules early (.rule id) t o

namespace Derives

variable {rules : RuleId → Peg} {early early' : Prop} {e a b body : Peg} {t x : List Char}
  {o o' : Option (List Char)}

/-- Two ways to split a text at the same place leave the same rest. -/
private theorem rest_eq {t x rest rest' : List Char} (h : t = x ++ rest) (h' : t = x ++ rest') :
    rest = rest' := List.append_cancel_left (h.symm.trans h')

/-- An expression does one thing to a text. -/
theorem unique (h : Derives rules early e t o) (h' : Derives rules early e t o') : o = o' := by
  induction h generalizing o' with
  | epsilon | finish | unfinished | charNone => cases h'; rfl
  | char t hc =>
    cases h' with
    | char => rfl
    | charOther _ hc' => simp [hc] at hc'
  | charOther t hc =>
    cases h' with
    | char _ hc' => simp [hc] at hc'
    | charOther => rfl
  | oracle hfind ht =>
    cases h' with
    | oracle hfind' ht' =>
      cases hfind.symm.trans hfind'
      rw [List.append_cancel_right (ht.symm.trans ht')]
    | oracleFails hfind' => cases hfind.symm.trans hfind'
  | oracleFails hfind =>
    cases h' with
    | oracle hfind' => cases hfind.symm.trans hfind'
    | oracleFails => rfl
  | seq _ ht _ iha ihb =>
    cases h' with
    | seq ha' ht' hb' =>
      cases iha ha'
      cases rest_eq ht ht'
      cases ihb hb'
      rfl
    | seqFails _ ha' => cases iha ha'
    | seqFailsLate ha' ht' hb' =>
      cases iha ha'
      cases rest_eq ht ht'
      cases ihb hb'
  | seqFails _ _ iha =>
    cases h' with
    | seq ha' => cases iha ha'
    | seqFails => rfl
    | seqFailsLate => rfl
  | seqFailsLate _ ht _ iha ihb =>
    cases h' with
    | seq ha' ht' hb' =>
      cases iha ha'
      cases rest_eq ht ht'
      cases ihb hb'
    | seqFails => rfl
    | seqFailsLate => rfl
  | choiceFirst _ _ iha =>
    cases h' with
    | choiceFirst _ ha' => exact iha ha'
    | choiceSecond ha' => cases iha ha'
  | choiceSecond _ _ iha ihb =>
    cases h' with
    | choiceFirst _ ha' => cases iha ha'
    | choiceSecond _ hb' => exact ihb hb'
  | starStop _ ih =>
    cases h' with
    | starMore hbody' => cases ih hbody'
    | _ => rfl
  | starStill _ ih =>
    cases h' with
    | starMore hbody' hx' =>
      cases ih hbody'
      exact absurd rfl hx'
    | _ => rfl
  | starMore _ hx ht _ ih ihrest =>
    cases h' with
    | starStop hbody' => cases ih hbody'
    | starStill hbody' =>
      cases ih hbody'
      exact absurd rfl hx
    | starMore hbody' _ ht' hrest' =>
      cases ih hbody'
      cases rest_eq ht ht'
      cases ihrest hrest'
      rfl
    | starEnd => exact absurd (List.append_eq_nil_iff.1 ht.symm).1 hx
  | starEnd =>
    cases h' with
    | starMore _ hx' ht' => exact absurd (List.append_eq_nil_iff.1 ht'.symm).1 hx'
    | _ => rfl
  | rule _ ih =>
    cases h' with
    | rule hrule' => exact ih hrule'

/-- Leave to end a loop early adds derivations, and takes none away. -/
theorem mono (hearly : early → early') (h : Derives rules early e t o) :
    Derives rules early' e t o := by
  induction h with
  | epsilon t => exact .epsilon t
  | finish => exact .finish
  | unfinished c t => exact .unfinished c t
  | char t hc => exact .char t hc
  | charOther t hc => exact .charOther t hc
  | charNone accept => exact .charNone accept
  | oracle hfind ht => exact .oracle hfind ht
  | oracleFails hfind => exact .oracleFails hfind
  | seq _ ht _ iha ihb => exact .seq iha ht ihb
  | seqFails b _ iha => exact .seqFails b iha
  | seqFailsLate _ ht _ iha ihb => exact .seqFailsLate iha ht ihb
  | choiceFirst b _ iha => exact .choiceFirst b iha
  | choiceSecond _ _ iha ihb => exact .choiceSecond iha ihb
  | starStop _ ih => exact .starStop ih
  | starStill _ ih => exact .starStill ih
  | starMore _ hx ht _ ih ihrest => exact .starMore ih hx ht ihrest
  | starEnd h body => exact .starEnd (hearly h) body
  | rule _ ih => exact .rule ih

/-- What is consumed stands at the front of the text. -/
theorem exists_rest (h : Derives rules early e t o) : ∀ x, o = some x → ∃ rest, t = x ++ rest := by
  induction h with
  | epsilon t =>
    intro x hx
    cases hx
    exact ⟨t, rfl⟩
  | finish =>
    intro x hx
    cases hx
    exact ⟨[], rfl⟩
  | @char accept c t hc =>
    intro x hx
    cases hx
    exact ⟨t, rfl⟩
  | @oracle find t x rest hfind ht =>
    intro x' hx
    cases hx
    exact ⟨rest, ht⟩
  | seq _ ht _ _ ihb =>
    intro z hz
    cases hz
    obtain ⟨rest, hrest⟩ := ihb _ rfl
    exact ⟨rest, by rw [ht, hrest, List.append_assoc]⟩
  | starMore _ _ ht _ _ ihrest =>
    intro z hz
    cases hz
    obtain ⟨rest, hrest⟩ := ihrest _ rfl
    exact ⟨rest, by rw [ht, hrest, List.append_assoc]⟩
  | starStop | starStill | starEnd =>
    intro x hx
    cases hx
    exact ⟨_, rfl⟩
  | choiceFirst _ _ ih => exact ih
  | choiceSecond _ _ _ ih => exact ih
  | rule _ ih => exact ih
  | unfinished | charOther | charNone | oracleFails | seqFails | seqFailsLate =>
    intro x hx
    cases hx

/-- Behind an expression that consumes nothing another derives what it derives by itself. -/
theorem seq_nil (ha : Derives rules early a t (some [])) (hb : Derives rules early b t o) :
    Derives rules early (.seq a b) t o := by
  cases o with
  | none => exact .seqFailsLate ha rfl hb
  | some y => exact .seq ha rfl hb

/-- One try of the body, and then the loop, is the loop where the body does not fail. -/
theorem seq_star (hbody : Derives rules early body t (some x))
    (hloop : Derives rules early (.star body) t o) :
    Derives rules early (.seq body (.star body)) t o := by
  cases hloop with
  | starStop hbody' => cases hbody.unique hbody'
  | starStill hbody' => exact .seq hbody' rfl (.starStill hbody')
  | starMore hbody' _ ht hrest => exact .seq hbody' ht hrest
  | starEnd hearly =>
    obtain ⟨rest, hrest⟩ := hbody.exists_rest x rfl
    obtain ⟨rfl, rfl⟩ := List.append_eq_nil_iff.1 hrest.symm
    exact .seq hbody rfl (.starEnd hearly body)

end Derives

end Peg

end Descent
