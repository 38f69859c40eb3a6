import CursorGrammar.Proofs.OrderedChoice

set_option autoImplicit false

/-! # Members in turn and branches in order

The judgements of sequences and of alternations, read off the lists of their members. A list that is
put together from two succeeds in turn if the second succeeds from where the first ends, and it
fails if the first fails, or the second fails from there. An alternation succeeds with the first
branch that does, all earlier ones failing, and it fails if all branches fail. -/

namespace CursorGrammar

variable {κ : Type} {grammar : Grammar κ} {source : Text} {p q : Int}
variable {matcher : Matcher κ} {matchers others : List (Matcher κ)}

/-! ## Members in turn -/

@[simp]
theorem succeedInTurn_nil_iff {founds : List Match} :
    SucceedInTurn grammar source [] p founds q ↔ founds = [] ∧ q = p := by
  constructor
  · rintro ⟨⟩
    exact ⟨rfl, rfl⟩
  · rintro ⟨rfl, rfl⟩
    exact .nil

@[simp]
theorem succeedInTurn_cons_iff {founds : List Match} :
    SucceedInTurn grammar source (matcher :: others) p founds q ↔
      ∃ found collected, founds = found :: collected ∧
        Succeeds grammar source matcher p found ∧
        SucceedInTurn grammar source others found.span.stop collected q := by
  constructor
  · intro h
    cases h with
    | cons h hrest => exact ⟨_, _, rfl, h, hrest⟩
  · rintro ⟨found, collected, rfl, h, hrest⟩
    exact .cons h hrest

@[simp]
theorem not_failInTurn_nil : ¬FailInTurn grammar source [] p :=
  nofun

@[simp]
theorem failInTurn_cons_iff :
    FailInTurn grammar source (matcher :: others) p ↔
      Fails grammar source matcher p ∨ ∃ found, Succeeds grammar source matcher p found ∧
        FailInTurn grammar source others found.span.stop := by
  constructor
  · intro h
    cases h with
    | first h => exact Or.inl h
    | later h hrest => exact Or.inr ⟨_, h, hrest⟩
  · rintro (h | ⟨found, h, hrest⟩)
    · exact .first h
    · exact .later h hrest

theorem succeedInTurn_singleton_iff {founds : List Match} :
    SucceedInTurn grammar source [matcher] p founds q ↔
      ∃ found, founds = [found] ∧ q = found.span.stop ∧
        Succeeds grammar source matcher p found := by
  simp only [succeedInTurn_cons_iff, succeedInTurn_nil_iff]
  grind

theorem failInTurn_singleton_iff :
    FailInTurn grammar source [matcher] p ↔ Fails grammar source matcher p := by
  simp

/-- Two lists of members succeed in turn if the second does from where the first ends. -/
theorem succeedInTurn_append_iff {founds : List Match} :
    SucceedInTurn grammar source (matchers ++ others) p founds q ↔
      ∃ first second r, founds = first ++ second ∧
        SucceedInTurn grammar source matchers p first r ∧
        SucceedInTurn grammar source others r second q := by
  induction matchers generalizing p founds with
  | nil =>
    constructor
    · intro h
      exact ⟨[], founds, p, rfl, .nil, h⟩
    · rintro ⟨_, second, _, rfl, ⟨⟩, h⟩
      exact h
  | cons matcher rest ih =>
    simp only [List.cons_append, succeedInTurn_cons_iff, ih]
    constructor
    · rintro ⟨found, _, rfl, h, first, second, r, rfl, hfirst, hsecond⟩
      exact ⟨found :: first, second, r, rfl, ⟨found, first, rfl, h, hfirst⟩, hsecond⟩
    · rintro ⟨_, second, r, rfl, ⟨found, first, rfl, h, hfirst⟩, hsecond⟩
      exact ⟨found, first ++ second, rfl, h, first, second, r, rfl, hfirst, hsecond⟩

/-- Two lists of members fail in turn if the first fails, or the second from where that ends. -/
theorem failInTurn_append_iff :
    FailInTurn grammar source (matchers ++ others) p ↔
      FailInTurn grammar source matchers p ∨
        ∃ first r, SucceedInTurn grammar source matchers p first r ∧
          FailInTurn grammar source others r := by
  induction matchers generalizing p with
  | nil =>
    constructor
    · intro h
      exact Or.inr ⟨[], p, .nil, h⟩
    · rintro (⟨⟨⟩⟩ | ⟨_, _, ⟨⟩, h⟩)
      exact h
  | cons matcher rest ih =>
    simp only [List.cons_append, failInTurn_cons_iff, succeedInTurn_cons_iff, ih]
    constructor
    · rintro (h | ⟨found, h, hrest | ⟨first, r, hfirst, hothers⟩⟩)
      · exact Or.inl (Or.inl h)
      · exact Or.inl (Or.inr ⟨found, h, hrest⟩)
      · exact Or.inr ⟨found :: first, r, ⟨found, first, rfl, h, hfirst⟩, hothers⟩
    · rintro ((h | ⟨found, h, hrest⟩) | ⟨_, r, ⟨found, first, rfl, h, hfirst⟩, hothers⟩)
      · exact Or.inl h
      · exact Or.inr ⟨found, h, Or.inl hrest⟩
      · exact Or.inr ⟨found, h, Or.inr ⟨first, r, hfirst, hothers⟩⟩

/-- A member that succeeds where the others end succeeds in turn with them. -/
theorem SucceedInTurn.concat {founds : List Match} {found : Match}
    (h : SucceedInTurn grammar source matchers p founds q)
    (hfound : Succeeds grammar source matcher q found) :
    SucceedInTurn grammar source (matchers ++ [matcher]) p (founds ++ [found]) found.span.stop :=
  succeedInTurn_append_iff.2 ⟨founds, [found], q, rfl, h, .cons hfound .nil⟩

/-- Members that succeed in turn are a sequence that succeeds. -/
theorem SucceedInTurn.exists_seq {founds : List Match} (hrange : source.InRange p)
    (h : SucceedInTurn grammar source matchers p founds q) :
    ∃ span, span.Covers p q ∧
      Succeeds grammar source (.seq matchers) p ⟨.ofMatches founds, span⟩ := by
  obtain ⟨span, hspan⟩ := Span.exists_covers hrange.1 (h.bounds hrange).1
  exact ⟨span, hspan, .seq h hspan⟩

/-- The members of a sequence that succeeds succeed in turn up to where its match ends. -/
theorem Succeeds.exists_inTurn {found : Match}
    (h : Succeeds grammar source (.seq matchers) p found) :
    ∃ founds, SucceedInTurn grammar source matchers p founds found.span.stop := by
  cases h with
  | seq hturn hspan =>
    rw [← hspan.2] at hturn
    exact ⟨_, hturn⟩

theorem SucceedInTurn.length_eq {members : List (Matcher κ)} {founds : List Match}
    (h : SucceedInTurn grammar source members p founds q) : founds.length = members.length := by
  induction members generalizing p founds with
  | nil =>
    cases h
    rfl
  | cons first rest ih =>
    cases h with
    | cons _ hrest => exact congrArg Nat.succ (ih hrest)

/-! ## Branches in order -/

/-- An alternation fails if all of its branches do. -/
theorem fails_alt_iff :
    Fails grammar source (.alt matchers) p ↔ ∀ m ∈ matchers, Fails grammar source m p := by
  induction matchers with
  | nil => exact ⟨nofun, fun _ => .altNone⟩
  | cons matcher rest ih =>
    rw [List.forall_mem_cons, ← ih]
    constructor
    · intro h
      cases h with
      | altAll hfirst h => exact ⟨hfirst, h⟩
    · rintro ⟨hfirst, h⟩
      exact .altAll hfirst h

/-- An alternation succeeds with what the first branch gives that does not fail. -/
theorem succeeds_alt_iff {found : Match} :
    Succeeds grammar source (.alt matchers) p found ↔
      ∃ earlier matcher later, matchers = earlier ++ matcher :: later ∧
        (∀ m ∈ earlier, Fails grammar source m p) ∧ Succeeds grammar source matcher p found := by
  induction matchers with
  | nil => simp [show ¬Succeeds grammar source (.alt []) p found from nofun]
  | cons matcher rest ih =>
    constructor
    · intro h
      cases h with
      | altFirst h => exact ⟨[], matcher, rest, rfl, nofun, h⟩
      | altLater hfirst h =>
        obtain ⟨earlier, winner, later, rfl, hearlier, hwinner⟩ := ih.1 h
        exact ⟨matcher :: earlier, winner, later, rfl,
          List.forall_mem_cons.2 ⟨hfirst, hearlier⟩, hwinner⟩
    · rintro ⟨_ | ⟨first, earlier⟩, winner, later, heq, hearlier, hwinner⟩
      · cases heq
        exact .altFirst hwinner
      · cases heq
        rw [List.forall_mem_cons] at hearlier
        exact .altLater hearlier.1 (ih.2 ⟨earlier, winner, later, rfl, hearlier.2, hwinner⟩)

end CursorGrammar
