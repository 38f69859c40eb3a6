import CursorGrammar.Proofs.Agreement
import CursorGrammar.Proofs.InTurn

set_option autoImplicit false

/-! # The floor of a repetition

A repetition that asks for a number of rounds and allows for no more of them is nothing but the
sequence of as many copies, whatever the behaviour does that is repeated. A repetition that allows
for more can be cut at its floor: first the rounds that are asked for, and then the others, which
need not take place. Without an upper bound the other rounds are the only ones that can stall; a
repetition that stalls before it reaches its floor goes through rounds up to there that are all the
same, and stalls in the first one after. -/

namespace CursorGrammar

/-! ## A fixed number of rounds -/

namespace Behaviour

variable {behaviour : Behaviour} {least start : Int} {stalled : Bool} {collected : List Match}

theorem endRepetition_of_enough (h : stalled = true ∨ least ≤ collected.length) :
    endRepetition least start stalled collected = (do
      return some (← Attempt.matchFrom (.ofMatches collected.reverse) start)) :=
  if_pos h

theorem endRepetition_of_few (h : (collected.length : Int) < least) :
    endRepetition least start false collected = (do
      Attempt.seek start
      return none) :=
  if_neg (by simpa using h)

/-- Rounds that are all asked for are copies in turn: the first one that gives nothing is one too
    few. -/
theorem boundedRounds_eq_sequenceFrom (rounds : Nat) (h : collected.length + rounds = least) :
    boundedRounds behaviour least start rounds collected
      = sequenceFrom start collected (List.replicate rounds behaviour) := by
  induction rounds generalizing collected with
  | zero => exact endRepetition_of_enough (Or.inr (by omega))
  | succ rounds ih =>
    show (behaviour >>= fun outcome => _) = (behaviour >>= fun outcome => _)
    refine bind_congr fun outcome => ?_
    cases outcome with
    | none => exact endRepetition_of_few (by omega)
    | some found => exact ih (by rw [List.length_cons]; omega)

/-- So many rounds and no more are a sequence of copies. -/
theorem quantifier_eq_sequence (limit : Nat) (behaviour : Behaviour) (rounds : Nat) :
    quantifier limit behaviour rounds (some rounds)
      = sequence (List.replicate rounds behaviour) :=
  bind_congr fun _ => boundedRounds_eq_sequenceFrom rounds (Int.zero_add _)

end Behaviour

namespace Matcher

/-- A repetition of so many rounds and no more behaves like the sequence of as many copies of its
    matcher, in every grammar and within all limits: on every text and from every cursor it returns
    the same, raises the same fault or is given up alike, and takes the same steps. -/
theorem quant_behaviour_eq_seq {κ : Type} (matcher : Matcher κ) (rounds : Nat)
    (grammar : Grammar κ) (limits : Limits) :
    (quant matcher rounds (some rounds)).behaviour grammar limits
      = (seq (List.replicate rounds matcher)).behaviour grammar limits := by
  obtain ⟨_ | nesting, limit⟩ := limits
  · rfl
  · show Behaviour.quantifier limit _ rounds (some rounds) = Behaviour.sequence (List.map _ _)
    rw [List.map_replicate]
    exact Behaviour.quantifier_eq_sequence limit _ rounds

/-- Two rounds of going back to the beginning: the match would end before it begins. -/
example : ((quant (.call (.probe .rewind)) 2 (some 2)).behaviour (.ofRules []) .wide ['a'] ⟨1, []⟩).1
    = .raised (.badSpan 1 0) :=
  rfl

end Matcher

/-! ## What is judged of the rounds up to the floor -/

section Judgements

variable {κ : Type} {grammar : Grammar κ} {source : Text} {matcher : Matcher κ}

/-- With an upper bound a repetition never stalls. -/
theorem Repeats.stalled_eq_false {bound : Int} {count : Nat} {p q : Int} {founds : List Match}
    {stalled : Bool} :
    Repeats grammar source matcher (some bound) count p founds q stalled → stalled = false
  | .full _ => rfl
  | .failed _ _ => rfl
  | .more _ _ _ hrest => hrest.stalled_eq_false

/-- As long as there is room for a round, there is if the rounds that are past and the upper bound
    are both lowered. -/
theorem room_lower {most : Option Int} {count total past : Nat} (htotal : total = count + past)
    (hroom : ∀ bound ∈ most, (total : Int) < bound) :
    ∀ bound ∈ most.map fun bound => bound - (past : Int), (count : Int) < bound := by
  rintro _ hlower
  obtain ⟨bound, hbound, rfl⟩ := Option.map_eq_some_iff.1 hlower
  have := hroom bound hbound
  omega

/-- Instead of counting the rounds that are past, the upper bound may be lowered by them. -/
theorem Repeats.lower {most : Option Int} {count total : Nat} (past : Nat) {p q : Int}
    {founds : List Match} {stalled : Bool} (htotal : total = count + past)
    (h : Repeats grammar source matcher most total p founds q stalled) :
    Repeats grammar source matcher (most.map fun bound => bound - past) count p founds q
      stalled := by
  induction founds generalizing count total p with
  | nil =>
    cases h with
    | full hbound =>
      refine .full ?_
      dsimp only
      omega
    | failed hroom h => exact .failed (room_lower htotal hroom) h
  | cons found founds ih =>
    cases h with
    | stalled h hwidth => exact .stalled h hwidth
    | more hroom h hwidth hrest =>
      refine .more (room_lower htotal hroom) h ?_ (ih (by omega) hrest)
      exact fun hnone => hwidth (Option.map_eq_none_iff.1 hnone)

/-- A match of nothing succeeds in as many rounds as there may be. -/
theorem Repeats.copies {found : Match} {p : Int} (h : Succeeds grammar source matcher p found)
    (hstop : found.span.stop = p) (copies : Nat) {count least : Nat}
    (hleast : count + copies = least) :
    Repeats grammar source matcher (some least) count p (List.replicate copies found) p false := by
  induction copies generalizing count with
  | zero => exact .full (by omega)
  | succ copies ih =>
    have hrest : Repeats grammar source matcher (some least) (count + 1) found.span.stop
        (List.replicate copies found) p false := by
      rw [hstop]
      exact ih (by omega)
    have hroom : count < least := by omega
    exact .more (by simpa using hroom) h nofun hrest

/-- The rounds of a repetition, of which `count` are over, cut after `least` of them. -/
inductive CutAt (grammar : Grammar κ) (source : Text) (matcher : Matcher κ) (most : Option Int)
    (count least : Nat) (p : Int) : List Match → Int → Bool → Prop
  /-- There are fewer, as the matcher fails before. -/
  | short {founds : List Match} {q : Int}
      (hfirst : Repeats grammar source matcher (some least) count p founds q false)
      (hfew : count + founds.length < least) :
      CutAt grammar source matcher most count least p founds q false
  /-- So many succeed, and the others follow. A repetition that has stalled before leaves out the
      rounds from there up to the cut, which are all the same. -/
  | reached {founds : List Match} {q : Int} {stalled : Bool} (first second : List Match) (r : Int)
      (hfirst : Repeats grammar source matcher (some least) count p first r false)
      (hcount : count + first.length = least)
      (hsecond : Repeats grammar source matcher most least r second q stalled)
      (hfounds : stalled = false → founds = first ++ second) :
      CutAt grammar source matcher most count least p founds q stalled

/-- A round that does not end the repetition stands before the cut of the others. -/
theorem CutAt.cons {most : Option Int} {count least : Nat} {p q : Int} {found : Match}
    {founds : List Match} {stalled : Bool} (hroom : count < least)
    (h : Succeeds grammar source matcher p found)
    (hrest : CutAt grammar source matcher most (count + 1) least found.span.stop founds q
      stalled) :
    CutAt grammar source matcher most count least p (found :: founds) q stalled := by
  have hroom' : ∀ bound ∈ some (least : Int), (count : Int) < bound := by simpa using hroom
  cases hrest with
  | short hfirst hfew =>
    exact .short (.more hroom' h nofun hfirst) (by rw [List.length_cons]; omega)
  | reached first second r hfirst hcount hsecond hfounds =>
    refine .reached (found :: first) second r (.more hroom' h nofun hfirst) ?_ hsecond ?_
    · rw [List.length_cons]
      omega
    · intro hstalled
      rw [hfounds hstalled]
      rfl

/-- A repetition whose upper bound is not below the cut can be cut. -/
theorem Repeats.cutAt {most : Option Int} {count least : Nat} {p q : Int} {founds : List Match}
    {stalled : Bool} (hrange : source.InRange p) (hcount : count ≤ least)
    (hmost : ∀ bound ∈ most, (least : Int) ≤ bound)
    (h : Repeats grammar source matcher most count p founds q stalled) :
    CutAt grammar source matcher most count least p founds q stalled := by
  rcases Nat.eq_or_lt_of_le hcount with rfl | hbefore
  · exact .reached [] founds p (.full (Int.le_refl _)) rfl h fun _ => rfl
  · match h with
    | .full h =>
      have := hmost _ rfl
      omega
    | .failed _ h => exact .short (.failed (by simpa using hbefore) h) hbefore
    | .stalled h hwidth =>
      -- the first part does not stop here, as it has a bound; the second part stalls in its turn
      have hstop := hwidth.trans (h.bounds hrange).1
      refine .reached _ _ p (.copies h hstop (least - count) (by omega)) ?_ (.stalled h hwidth)
        nofun
      rw [List.length_replicate]
      omega
    | .more _ h _ hrest =>
      exact .cons hbefore h (hrest.cutAt (h.bounds hrange).2.2 hbefore hmost)

/-! ## The two parts -/

/-- The value of a repetition, and that of its two parts one after the other: the two have collected
    matches each, and with an upper bound the repetition has collected those of the first and then
    those of the second. -/
def SplitsInto (most : Option Int) (whole parts : Value) : Prop :=
  ∃ first second firstSpan secondSpan,
    parts = .ofMatches [⟨.ofMatches first, firstSpan⟩, ⟨.ofMatches second, secondSpan⟩] ∧
    (most ≠ none → whole = .ofMatches (first ++ second))

/-- Where the rounds reach the cut, both parts succeed. -/
theorem succeedInTurn_parts {most : Option Int} {least : Nat} {p q r : Int}
    {first second : List Match} {stalled : Bool} (hrange : source.InRange p)
    (hfirst : Repeats grammar source matcher (some least) 0 p first r false)
    (hcount : first.length = least)
    (hsecond : Repeats grammar source matcher most least r second q stalled) :
    ∃ firstSpan secondSpan, SucceedInTurn grammar source
      [.quant matcher least (some least), .quant matcher 0 (most.map fun bound => bound - least)] p
      [⟨.ofMatches first, firstSpan⟩, ⟨.ofMatches second, secondSpan⟩] q := by
  obtain ⟨hle, hrange'⟩ := hfirst.bounds hrange
  obtain ⟨firstSpan, hfirstSpan⟩ := Span.exists_covers hrange.1 hle
  obtain ⟨secondSpan, hsecondSpan⟩ := Span.exists_covers hrange'.1 (hsecond.bounds hrange').1
  refine ⟨firstSpan, secondSpan, .cons (.quant hfirst (Or.inr (by omega)) hfirstSpan) ?_⟩
  rw [hfirstSpan.2, succeedInTurn_singleton_iff]
  have hothers := hsecond.lower least (Nat.zero_add least).symm
  exact ⟨_, rfl, hsecondSpan.2.symm, .quant hothers (Or.inr (by omega)) hsecondSpan⟩

/-- What a repetition is judged to do has its like in what its two parts are judged to do. -/
theorem Judged.exists_splitsInto {most : Option Int} {least : Nat} {p : Int}
    {whole : Option Match} (hrange : source.InRange p)
    (hmost : ∀ bound ∈ most, (least : Int) ≤ bound)
    (h : Judged grammar source (.quant matcher least most) p whole) :
    ∃ parts, Judged grammar source (.seq [.quant matcher least (some least),
        .quant matcher 0 (most.map fun bound => bound - least)]) p parts ∧
      Match.Alike (SplitsInto most) whole parts := by
  cases whole with
  | none =>
    cases h with
    | quant hrounds hfew =>
      rw [not_or, Bool.not_eq_true] at hfew
      obtain ⟨rfl, hfew⟩ := hfew
      cases hrounds.cutAt hrange (Nat.zero_le least) hmost with
      | short hfirst _ =>
        exact ⟨none, .seq (.first (.quant hfirst (by simpa using hfew))), trivial⟩
      | reached first second r hfirst hcount hsecond hfounds =>
        rw [hfounds rfl, List.length_append] at hfew
        omega
  | some found =>
    cases h with
    | quant hrounds henough hspan =>
      cases hrounds.cutAt hrange (Nat.zero_le least) hmost with
      | short hfirst hfew =>
        have := henough.resolve_left Bool.false_ne_true
        omega
      | reached first second r hfirst hcount hsecond hfounds =>
        rw [Nat.zero_add] at hcount
        obtain ⟨firstSpan, secondSpan, hturn⟩ :=
          succeedInTurn_parts hrange hfirst hcount hsecond
        refine ⟨some _, .seq hturn hspan, rfl, first, second, firstSpan, secondSpan, rfl, ?_⟩
        intro hbound
        obtain ⟨bound, rfl⟩ := Option.ne_none_iff_exists'.1 hbound
        rw [hfounds hrounds.stalled_eq_false]

end Judgements

namespace Matcher

variable {source : Text} {progress : Progress} {limits : Limits}

end Matcher

end CursorGrammar
