import CursorGrammar.Probe
import CursorGrammar.Proofs.Decided
import CursorGrammar.Proofs.InTurn
import CursorGrammar.Proofs.Refinement
import Mathlib.Data.Set.Finite.Basic

set_option autoImplicit false

/-! # Left calls

A rule that calls itself before anything has been read calls itself forever. If the rules of a
grammar are finitely many, and no rule can come back to itself by calls that are made before
anything has been read, then every run ends. The proof is by induction on the characters that are
left, there on the rules in the order of their left calls, and in the body of a rule on its tree:
where nothing has been read yet, a member of the body is called for which the rules are settled,
and where something has been read, fewer characters are left. -/

namespace CursorGrammar

variable {κ : Type}

/-! ## Matchers that consume -/

namespace Matcher

/-- The form of the matcher shows that it matches nothing without reading a character. -/
inductive Consumes : Matcher κ → Prop
  | char (value : Text) : Consumes (.char value)
  | seq {matchers : List (Matcher κ)} {matcher : Matcher κ} (hmem : matcher ∈ matchers)
      (h : Consumes matcher) : Consumes (.seq matchers)
  | alt {matchers : List (Matcher κ)} (h : ∀ m ∈ matchers, Consumes m) :
      Consumes (.alt matchers)
  | quant {matcher : Matcher κ} {least : Int} {most : Option Int} (hleast : 1 ≤ least)
      (h : Consumes matcher) : Consumes (.quant matcher least most)

/-- The matcher calls the target at a place before which, in the sequences on the way to it, no
    member consumes. -/
inductive LeftRefers : Matcher κ → κ → Prop
  | call (target : κ) : LeftRefers (.call target) target
  | seqFirst {matcher : Matcher κ} {rest : List (Matcher κ)} {target : κ}
      (h : LeftRefers matcher target) : LeftRefers (.seq (matcher :: rest)) target
  | seqLater {matcher : Matcher κ} {rest : List (Matcher κ)} {target : κ}
      (hfirst : ¬matcher.Consumes) (h : LeftRefers (.seq rest) target) :
      LeftRefers (.seq (matcher :: rest)) target
  | alt {matchers : List (Matcher κ)} {matcher : Matcher κ} {target : κ}
      (hmem : matcher ∈ matchers) (h : LeftRefers matcher target) :
      LeftRefers (.alt matchers) target
  | quant {matcher : Matcher κ} {least : Int} {most : Option Int} {target : κ}
      (h : LeftRefers matcher target) : LeftRefers (.quant matcher least most) target
  | opt {matcher : Matcher κ} {target : κ} (h : LeftRefers matcher target) :
      LeftRefers (.opt matcher) target

@[simp]
theorem consumes_char {value : Text} : (char value : Matcher κ).Consumes :=
  .char value

@[simp]
theorem leftRefers_call_iff {k target : κ} : (call k).LeftRefers target ↔ target = k := by
  constructor
  · rintro ⟨⟩
    rfl
  · rintro rfl
    exact .call target

@[simp]
theorem not_leftRefers_char {value : Text} {target : κ} : ¬(char value).LeftRefers target :=
  nofun

@[simp]
theorem not_leftRefers_seq_nil {target : κ} : ¬(seq []).LeftRefers target :=
  nofun

@[simp]
theorem leftRefers_seq_cons_iff {matcher : Matcher κ} {rest : List (Matcher κ)} {target : κ} :
    (seq (matcher :: rest)).LeftRefers target ↔
      matcher.LeftRefers target ∨ ¬matcher.Consumes ∧ (seq rest).LeftRefers target := by
  constructor
  · rintro (_ | h | ⟨hfirst, h⟩)
    · exact Or.inl h
    · exact Or.inr ⟨hfirst, h⟩
  · rintro (h | ⟨hfirst, h⟩)
    · exact .seqFirst h
    · exact .seqLater hfirst h

@[simp]
theorem leftRefers_alt_iff {matchers : List (Matcher κ)} {target : κ} :
    (alt matchers).LeftRefers target ↔ ∃ m ∈ matchers, m.LeftRefers target := by
  constructor
  · rintro (_ | _ | _ | ⟨hmem, h⟩)
    exact ⟨_, hmem, h⟩
  · rintro ⟨m, hmem, h⟩
    exact .alt hmem h

@[simp]
theorem leftRefers_quant_iff {matcher : Matcher κ} {least : Int} {most : Option Int}
    {target : κ} : (quant matcher least most).LeftRefers target ↔ matcher.LeftRefers target := by
  constructor
  · rintro (_ | _ | _ | _ | h)
    exact h
  · exact .quant

/-- A left call is a call. -/
theorem CallsOnly.of_leftRefers {allowed : κ → Prop} {matcher : Matcher κ} {target : κ}
    (h : matcher.CallsOnly allowed) (hleft : matcher.LeftRefers target) : allowed target := by
  induction hleft with
  | call target =>
    cases h with
    | call h => exact h
  | seqFirst _ ih =>
    cases h with
    | seq h => exact ih (h _ (List.mem_cons_self ..))
  | seqLater _ _ ih =>
    cases h with
    | seq h => exact ih (.seq fun m hm => h m (List.mem_cons_of_mem _ hm))
  | alt hmem _ ih =>
    cases h with
    | alt h => exact ih (h _ hmem)
  | quant _ ih =>
    cases h with
    | quant h => exact ih h
  | opt _ ih =>
    cases h with
    | opt h => exact ih h

end Matcher

/-- The matcher that the caller goes on with calls the callee from the left. -/
def Grammar.LeftCalls (grammar : Grammar κ) (caller callee : κ) : Prop :=
  ∃ matcher, (grammar caller).matcher? = some matcher ∧ matcher.LeftRefers callee

variable {grammar : Grammar κ} {source : Text} {p : Int}

/-- Each of the matchers that succeed in turn does so at some offset on the way. -/
theorem SucceedInTurn.exists_of_mem {matchers : List (Matcher κ)} {matcher : Matcher κ} {q : Int}
    {collected : List Match} (h : SucceedInTurn grammar source matchers p collected q)
    (hmem : matcher ∈ matchers) (hrange : source.InRange p) :
    ∃ r found, p ≤ r ∧ source.InRange r ∧ Succeeds grammar source matcher r found ∧
      found.span.stop ≤ q := by
  induction matchers generalizing p collected with
  | nil => cases hmem
  | cons first rest ih =>
    cases h with
    | cons hfirst hrest =>
      obtain ⟨-, hle, hafter⟩ := hfirst.bounds hrange
      rcases List.mem_cons.1 hmem with rfl | hmem
      · exact ⟨p, _, Int.le_refl p, hrange, hfirst, (hrest.bounds hafter).1⟩
      · obtain ⟨r, found, hr, hrest⟩ := ih hrest hmem hafter
        exact ⟨r, found, Int.le_trans hle hr, hrest⟩

/-- A repetition that has enough rounds, and needs one at least, begins with a success. -/
theorem Repeats.exists_first {matcher : Matcher κ} {most : Option Int} {count : Nat} {q : Int}
    {collected : List Match} {stalled : Bool} {least : Int}
    (h : Repeats grammar source matcher most count p collected q stalled)
    (henough : stalled = true ∨ least ≤ collected.length) (hleast : 1 ≤ least)
    (hrange : source.InRange p) :
    ∃ found, Succeeds grammar source matcher p found ∧ found.span.stop ≤ q := by
  cases h with
  | full _ =>
    rcases henough with hstalled | hfew
    · cases hstalled
    · simp at hfew
      omega
  | failed _ _ =>
    rcases henough with hstalled | hfew
    · cases hstalled
    · simp at hfew
      omega
  | stalled h _ => exact ⟨_, h, Int.le_refl _⟩
  | more _ h _ hrest => exact ⟨_, h, (hrest.bounds (h.bounds hrange).2.2).1⟩

/-- A matcher that consumes ends beyond where it begins. -/
theorem Succeeds.lt_of_consumes {matcher : Matcher κ} {found : Match}
    (h : Succeeds grammar source matcher p found) (hconsumes : matcher.Consumes)
    (hrange : source.InRange p) : p < found.span.stop := by
  induction hconsumes generalizing p found with
  | char value =>
    cases h with
    | char _ _ hspan =>
      rw [hspan.2]
      exact Int.lt_succ p
  | seq hmem _ ih =>
    cases h with
    | seq h hspan =>
      obtain ⟨r, found', hr, hrange', hfound, hle⟩ := h.exists_of_mem hmem hrange
      have hlt := ih hfound hrange'
      rw [hspan.2]
      omega
  | alt _ ih =>
    obtain ⟨_, matcher, _, rfl, -, hfound⟩ := succeeds_alt_iff.1 h
    exact ih matcher (List.mem_append_right _ List.mem_cons_self) hfound hrange
  | quant hleast _ ih =>
    cases h with
    | quant h henough hspan =>
      obtain ⟨found', hfound, hle⟩ := h.exists_first henough hleast hrange
      have hlt := ih hfound hrange
      rw [hspan.2]
      omega

/-! ## Grammars without left recursion -/

section Rules

variable {allowed : κ → Prop}

/-- All allowed calls are decided at every later offset of the text. -/
def DecidedAfter (grammar : Grammar κ) (source : Text) (allowed : κ → Prop) (p : Int) : Prop :=
  ∀ q, p < q → source.InRange q → ∀ target, allowed target →
    Decided grammar source (.call target) q

theorem DecidedAfter.mono {q : Int} (h : DecidedAfter grammar source allowed p) (hle : p ≤ q) :
    DecidedAfter grammar source allowed q :=
  fun r hr => h r (Int.lt_of_le_of_lt hle hr)

/-- From the offset on, the left calls of a matcher are decided, if they are decided at the offset
    itself where they have to be. -/
theorem DecidedAfter.of_leftRefers {matcher : Matcher κ} {q : Int}
    (hlater : DecidedAfter grammar source allowed p) (hcalls : matcher.CallsOnly allowed)
    (hle : p ≤ q) (hrange : source.InRange q)
    (hhere : q = p → ∀ target, matcher.LeftRefers target →
      Decided grammar source (.call target) p) :
    ∀ target, matcher.LeftRefers target → Decided grammar source (.call target) q := by
  intro target htarget
  rcases Int.lt_or_eq_of_le hle with hlt | rfl
  · exact hlater q hlt hrange target (hcalls.of_leftRefers htarget)
  · exact hhere rfl target htarget

/-- The matcher is decided where its left calls are, if all allowed calls are decided later on. -/
def DecidedByLeftCalls (grammar : Grammar κ) (source : Text) (allowed : κ → Prop)
    (matcher : Matcher κ) : Prop :=
  ∀ p, source.InRange p → DecidedAfter grammar source allowed p →
    (∀ target, matcher.LeftRefers target → Decided grammar source (.call target) p) →
    Decided grammar source matcher p

/-- As long as nothing has been read, the left calls of the next member are left calls of the
    sequence; after that, they are made later on. -/
theorem decidedInTurn_of_leftRefers {matchers : List (Matcher κ)}
    (hcalls : (Matcher.seq matchers).CallsOnly allowed)
    (hmembers : ∀ m ∈ matchers, DecidedByLeftCalls grammar source allowed m)
    (hrange : source.InRange p) (hlater : DecidedAfter grammar source allowed p)
    (hleft : ∀ target, (Matcher.seq matchers).LeftRefers target →
      Decided grammar source (.call target) p) :
    DecidedInTurn grammar source matchers p := by
  induction matchers generalizing p with
  | nil => exact Or.inl ⟨[], p, .nil⟩
  | cons first rest ih =>
    have hfirst : Decided grammar source first p :=
      hmembers first (List.mem_cons_self ..) p hrange hlater
        fun target ht => hleft target (.seqFirst ht)
    refine .cons hfirst fun found hfound => ?_
    obtain ⟨-, hle, hafter⟩ := hfound.bounds hrange
    have hrest : (Matcher.seq rest).CallsOnly allowed := by
      cases hcalls with
      | seq h => exact .seq fun m hm => h m (List.mem_cons_of_mem _ hm)
    refine ih hrest (fun m hm => hmembers m (List.mem_cons_of_mem _ hm)) hafter
      (hlater.mono hle) (hlater.of_leftRefers hrest hle hafter ?_)
    intro hstop target htarget
    -- nothing has been read, so the first member does not consume
    refine hleft target (.seqLater ?_ htarget)
    intro hconsumes
    have := hfound.lt_of_consumes hconsumes hrange
    omega

/-- Every matcher that makes allowed calls only is decided by its left calls. -/
theorem Matcher.CallsOnly.decidedByLeftCalls {matcher : Matcher κ}
    (hcalls : matcher.CallsOnly allowed) :
    DecidedByLeftCalls grammar source allowed matcher := by
  induction hcalls with
  | char value => exact fun _ hrange _ _ => char_decided value hrange
  | pattern pattern => exact fun _ hrange _ _ => pattern_decided pattern hrange
  | seq h ih =>
    intro p hrange hlater hleft
    exact seq_decided hrange (decidedInTurn_of_leftRefers (.seq h) ih hrange hlater hleft)
  | alt h ih =>
    intro p hrange hlater hleft
    exact alt_decided fun m hm => ih m hm p hrange hlater fun target ht => hleft target (.alt hm ht)
  | quant h ih =>
    intro p hrange hlater hleft
    refine quant_decided _ hrange fun q hle hrange' => ih q hrange' (hlater.mono hle) ?_
    exact hlater.of_leftRefers h hle hrange' fun _ target ht => hleft target (.quant ht)
  | opt h ih =>
    intro p hrange hlater hleft
    exact opt_decided hrange (ih p hrange hlater fun target ht => hleft target (.opt ht))
  | call _ => exact fun _ _ _ hleft => hleft _ (.call _)

/-- Among the allowed calls, the one is called from the left by the other. -/
def Grammar.LeftCalledBy (grammar : Grammar κ) (allowed : κ → Prop)
    (callee caller : {target // allowed target}) : Prop :=
  grammar.LeftCalls caller.1 callee.1

/-- Without cycles, finitely many rules can be taken in the order of their left calls. -/
theorem Grammar.wellFounded_leftCalledBy (hfinite : {target | allowed target}.Finite)
    (hacyclic : ∀ target, allowed target → ¬Relation.TransGen grammar.LeftCalls target target) :
    WellFounded (grammar.LeftCalledBy allowed) := by
  have : Finite {target // allowed target} := hfinite.to_subtype
  have : IsTrans _ (Relation.TransGen (grammar.LeftCalledBy allowed)) :=
    ⟨fun _ _ _ => Relation.TransGen.trans⟩
  have : Std.Irrefl (Relation.TransGen (grammar.LeftCalledBy allowed)) := by
    refine ⟨fun target hcycle => hacyclic target.1 target.2 ?_⟩
    exact (Relation.transGen_swap.1 hcycle).lift Subtype.val fun _ _ h => h
  exact Subrelation.wf Relation.TransGen.single
    (Finite.wellFounded_of_trans_of_irrefl (Relation.TransGen (grammar.LeftCalledBy allowed)))

/-- Every rule is decided everywhere in the text. -/
theorem Grammar.call_decided_of_acyclic (hfinite : {target | allowed target}.Finite)
    (hclosed : grammar.ClosedUnder allowed)
    (hrules : ∀ target, allowed target → (grammar target).matcher? ≠ none)
    (hacyclic : ∀ target, allowed target → ¬Relation.TransGen grammar.LeftCalls target target)
    (hrange : source.InRange p) {target : κ} (hallowed : allowed target) :
    Decided grammar source (.call target) p := by
  -- first on the characters that are left
  induction hleft : (source.length - p).toNat using Nat.strong_induction_on
    generalizing p target with
  | _ left ih =>
    have hlater : DecidedAfter grammar source allowed p := by
      intro q hlt hrange' callee hcallee
      have := hrange'.2
      exact ih _ (by omega) hrange' hcallee rfl
    -- and at one offset on the rules, the left calls of a rule before the rule
    suffices h : ∀ caller : {target // allowed target},
        Decided grammar source (.call caller.1) p from h ⟨target, hallowed⟩
    intro caller
    induction caller using (wellFounded_leftCalledBy hfinite hacyclic).induction with
    | _ caller ihcaller =>
      cases hbody : (grammar caller.1).matcher? with
      | none => exact absurd hbody (hrules caller.1 caller.2)
      | some body =>
        have hcalls := hclosed caller.1 body caller.2 hbody
        refine call_decided hbody (hcalls.decidedByLeftCalls p hrange hlater ?_)
        intro callee hcallee
        exact ihcaller ⟨callee, hcalls.of_leftRefers hcallee⟩ ⟨body, hbody, hcallee⟩

end Rules

/-! ## A grammar of sums -/

/-- A sum is a term, and any number of further ones behind plus signs. A term is a sum in
    parentheses or any number of ones, perhaps none. -/
def Grammar.sums : Grammar Callee :=
  Grammar.ofRules [
    (['s'], .seq [.call (.rule ['t']),
      .quant (.seq [.char ['+'], .call (.rule ['t'])]) 0 none]),
    (['t'], .alt [.seq [.char ['('], .call (.rule ['s']), .char [')']],
      .quant (.char ['1']) 0 none])]

end CursorGrammar
