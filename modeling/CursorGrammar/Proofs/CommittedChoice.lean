import CursorGrammar.Proofs.Agreement
import CursorGrammar.Proofs.InTurn
import CursorGrammar.Proofs.Rounds

set_option autoImplicit false

/-! # Choices inside sequences

An alternation makes its choice once: it takes the first branch that matches, and whatever fails
later does not make it try another. In front of other members it therefore is the branch that it
takes. Behind other members it can be drawn out of the sequence: the sequences with the one branch
each, tried one after the other, match those members anew each time, but from the same place and
with the same matches. -/

namespace CursorGrammar

/-! ## What is judged of choices -/

section Judgements

variable {κ : Type} {grammar : Grammar κ} {source : Text} {p : Int}
variable {front branches members earlier later : List (Matcher κ)} {branch : Matcher κ}

/-- If a front with a choice behind it fails, it fails with each of the branches behind it. -/
theorem failInTurn_front_branch
    (h : FailInTurn grammar source (front ++ [.alt branches]) p) (hbranch : branch ∈ branches) :
    FailInTurn grammar source (front ++ [branch]) p := by
  rw [failInTurn_append_iff] at h ⊢
  rcases h with hfront | ⟨first, r, hfirst, hchoice⟩
  · exact Or.inl hfront
  · rw [failInTurn_singleton_iff, fails_alt_iff] at hchoice
    exact Or.inr ⟨first, r, hfirst, .first (hchoice branch hbranch)⟩

/-- What a sequence with a choice at its end is judged to do, that is what the choice is judged to
    do among the sequences with one of the branches each. -/
theorem Judged.drawn_out {outcome : Option Match}
    (h : Judged grammar source (.seq (front ++ [.alt branches])) p outcome) :
    Judged grammar source (.alt (branches.map fun branch => .seq (front ++ [branch]))) p
      outcome := by
  cases outcome with
  | none =>
    cases h with
    | seq hturn =>
      refine fails_alt_iff.2 ?_
      rw [List.forall_mem_map]
      intro branch hbranch
      exact .seq (failInTurn_front_branch hturn hbranch)
  | some found =>
    cases h with
    | seq hturn hspan =>
      obtain ⟨first, _, r, rfl, hfront, hchoice⟩ := succeedInTurn_append_iff.1 hturn
      obtain ⟨found, rfl, rfl, hfound⟩ := succeedInTurn_singleton_iff.1 hchoice
      obtain ⟨earlier, branch, later, rfl, hearlier, hbranch⟩ := succeeds_alt_iff.1 hfound
      refine succeeds_alt_iff.2 ⟨_, _, _, List.map_append .., ?_, ?_⟩
      · rw [List.forall_mem_map]
        intro m hm
        exact .seq (failInTurn_append_iff.2 (Or.inr ⟨first, r, hfront, .first (hearlier m hm)⟩))
      · refine .seq (succeedInTurn_append_iff.2 ⟨first, _, r, rfl, hfront, ?_⟩) hspan
        exact succeedInTurn_singleton_iff.2 ⟨found, rfl, rfl, hbranch⟩

/-- Behind earlier branches that fail, a branch that succeeds is what its alternation is judged to
    be, whatever members follow. -/
theorem Judged.of_committed {found : Match} {outcome : Option Match} (hrange : source.InRange p)
    (hearlier : ∀ m ∈ earlier, Fails grammar source m p)
    (hbranch : Succeeds grammar source branch p found)
    (h : Judged grammar source (.seq (branch :: members)) p outcome) :
    Judged grammar source (.seq (.alt (earlier ++ branch :: later) :: members)) p outcome := by
  have hchoice : ∀ found, Succeeds grammar source branch p found →
      Succeeds grammar source (.alt (earlier ++ branch :: later)) p found :=
    fun found hfound => succeeds_alt_iff.2 ⟨earlier, branch, later, rfl, hearlier, hfound⟩
  cases outcome with
  | none =>
    cases h with
    | seq hturn =>
      rw [failInTurn_cons_iff] at hturn
      rcases hturn with hfails | ⟨found', hfound', hmembers⟩
      · exact absurd hfails (not_fails_of_succeeds hrange hbranch)
      · exact .seq (.later (hchoice found' hfound') hmembers)
  | some whole =>
    cases h with
    | seq hturn hspan =>
      obtain ⟨found', collected, rfl, hfound', hmembers⟩ := succeedInTurn_cons_iff.1 hturn
      exact .seq (.cons (hchoice found' hfound') hmembers) hspan

end Judgements

/-! ## Branches that are not tried -/

namespace Behaviour

variable {source : Text} {progress progress' : Progress} {behaviour behaviour' : Behaviour}

/-- An alternation of two lists of branches is the first and then, if that gives nothing, the
    second. -/
theorem alternation_append (behaviours others : List Behaviour) :
    alternation (behaviours ++ others) = (do
      match ← alternation behaviours with
      | none => alternation others
      | some found => return some found) := by
  induction behaviours with
  | nil => rfl
  | cons behaviour rest ih =>
    show (behaviour >>= fun outcome => _) = ((behaviour >>= fun outcome => _) >>= _)
    rw [bind_assoc]
    refine bind_congr fun outcome => ?_
    cases outcome with
    | none => exact ih
    | some found => rfl

/-- Where the first branches give a match, the others are not tried. -/
theorem alternation_append_of_returned {behaviours : List Behaviour} {found : Match}
    (h : alternation behaviours source progress = (.returned (some found), progress'))
    (others : List Behaviour) :
    alternation (behaviours ++ others) source progress
      = alternation behaviours source progress := by
  rw [alternation_append, h]
  exact Attempt.andThen_of_returned h

/-- A sequence depends on what its first member does where it begins. -/
theorem sequence_cons_congr (h : behaviour source progress = behaviour' source progress)
    (members : List Behaviour) :
    sequence (behaviour :: members) source progress
      = sequence (behaviour' :: members) source progress := by
  show Attempt.andThen behaviour _ source progress = Attempt.andThen behaviour' _ source progress
  unfold Attempt.andThen
  rw [h]

end Behaviour

namespace Matcher

section Limited

variable {κ : Type} {grammar : Grammar κ} {limits : Limits} {source : Text}
variable {progress progress' : Progress}

theorem alt_append_of_returned {branches : List (Matcher κ)} {found : Match}
    (h : (alt branches).behaviour grammar limits source progress
      = (.returned (some found), progress')) (others : List (Matcher κ)) :
    (alt (branches ++ others)).behaviour grammar limits source progress
      = (alt branches).behaviour grammar limits source progress := by
  obtain ⟨_ | nesting, rounds⟩ := limits
  · rfl
  · show Behaviour.alternation ((branches ++ others).map _) source progress = _
    rw [List.map_append]
    exact Behaviour.alternation_append_of_returned h _

theorem seq_cons_congr {matcher matcher' : Matcher κ} {nesting rounds : Nat}
    (h : matcher.behaviour grammar ⟨nesting, rounds⟩ source progress
      = matcher'.behaviour grammar ⟨nesting, rounds⟩ source progress)
    (members : List (Matcher κ)) :
    (seq (matcher :: members)).behaviour grammar ⟨nesting + 1, rounds⟩ source progress
      = (seq (matcher' :: members)).behaviour grammar ⟨nesting + 1, rounds⟩ source progress :=
  Behaviour.sequence_cons_congr h _

end Limited

/-! ## Matchers without calls -/

variable {source : Text} {progress : Progress} {limits : Limits}

section Committed

variable {earlier later members : List (Matcher Empty)} {first : Matcher Empty} {found : Match}

/-- In front of other members an alternation is the first of its branches that succeeds. -/
theorem seq_agreeFrom_committed (hrange : source.InRange progress.cursor)
    (hearlier : ∀ m ∈ earlier, Fails .plain source m progress.cursor)
    (hfirst : Succeeds .plain source first progress.cursor found)
    (hnesting : (seq (alt (earlier ++ first :: later) :: members)).depth ≤ limits.nesting)
    (hrounds : source.length < limits.rounds) :
    Behaviour.AgreeFrom source progress
      ((seq (first :: members)).behaviour .plain limits)
      ((seq (alt (earlier ++ first :: later) :: members)).behaviour .plain limits) := by
  have hnesting' : (seq (first :: members)).depth ≤ limits.nesting := by
    have hbranch : first.depth ≤ maxDepth (earlier ++ first :: later) :=
      depth_le_maxDepth (List.mem_append_right _ List.mem_cons_self)
    simp only [depth, maxDepth] at hnesting ⊢
    omega
  exact agreeFrom_of_judged hrange hnesting' hnesting hrounds fun _ hjudged =>
    hjudged.of_committed hrange hearlier hfirst

/-- The branches behind the first one that succeeds make no difference to any step of the run. -/
theorem seq_alt_append_of_succeeds (hrange : source.InRange progress.cursor)
    (hearlier : ∀ m ∈ earlier, Fails .plain source m progress.cursor)
    (hfirst : Succeeds .plain source first progress.cursor found)
    (hnesting : (seq (alt (earlier ++ first :: later) :: members)).depth ≤ limits.nesting)
    (hrounds : source.length < limits.rounds) :
    (seq (alt (earlier ++ first :: later) :: members)).behaviour .plain limits source progress
      = (seq (alt (earlier ++ [first]) :: members)).behaviour .plain limits source progress := by
  obtain ⟨_ | nesting, rounds⟩ := limits
  · exact absurd hnesting (Nat.not_le_of_gt (depth_pos _))
  have hbranches : maxDepth (earlier ++ [first]) ≤ maxDepth (earlier ++ first :: later) := by
    refine maxDepth_le_iff.2 fun m hm => depth_le_maxDepth ?_
    rw [List.append_cons]
    exact List.mem_append_left later hm
  have hnesting' : (alt (earlier ++ [first])).depth ≤ (Limits.mk nesting rounds).nesting := by
    simp only [depth, maxDepth] at hnesting ⊢
    omega
  have hchoice : Succeeds .plain source (alt (earlier ++ [first])) progress.cursor found :=
    succeeds_alt_iff.2 ⟨earlier, first, [], rfl, hearlier, hfirst⟩
  obtain ⟨journal, hrun⟩ :=
    plain_returned_of_judged hrange hnesting' hrounds (some found) hchoice
  rw [List.append_cons]
  exact seq_cons_congr (alt_append_of_returned hrun later) members

end Committed

end Matcher

end CursorGrammar
