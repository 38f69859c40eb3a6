import CursorGrammar.Proofs.CommittedChoice

set_option autoImplicit false

/-! # Groups of members and of branches

Sequences inside a sequence, and alternations inside an alternation, may as well be written out as
one. A sequence of sequences recognises what all their members in turn recognise, and has collected
the same matches, group by group. An alternation of alternations, nested as deep as may be, does
what the one alternation of its leaves does, whatever the leaves do to the cursor: no alternation
puts it back. -/

namespace CursorGrammar

/-! ## Sequences of sequences -/

/-- The first value holds matches that hold matches in their turn, as many each as the sizes say.
    The second value holds all of those one after the other. -/
def Value.GroupedBy (sizes : List Nat) (grouped flat : Value) : Prop :=
  ∃ (members : List Match) (collected : List (List Match)),
    grouped = .ofMatches members ∧ flat = .ofMatches collected.flatten ∧
    members.map Match.value = collected.map Value.ofMatches ∧
    collected.map List.length = sizes

section Judgements

variable {κ : Type} {grammar : Grammar κ} {source : Text} {p q : Int}
variable {groups : List (List (Matcher κ))}

/-- Where groups succeed in turn, all their members do. -/
theorem SucceedInTurn.ungrouped {members : List Match}
    (h : SucceedInTurn grammar source (groups.map .seq) p members q) :
    ∃ collected : List (List Match),
      SucceedInTurn grammar source groups.flatten p collected.flatten q ∧
      members.map Match.value = collected.map Value.ofMatches ∧
      collected.map List.length = groups.map List.length := by
  induction groups generalizing p members with
  | nil =>
    obtain ⟨rfl, rfl⟩ := succeedInTurn_nil_iff.1 h
    exact ⟨[], .nil, rfl, rfl⟩
  | cons group rest ih =>
    obtain ⟨found, others, rfl, hfound, hrest⟩ := succeedInTurn_cons_iff.1 h
    obtain ⟨collected, hflat, hvalues, hsizes⟩ := ih hrest
    cases hfound with
    | @seq _ _ r first span hturn hspan =>
      rw [hspan.2] at hflat
      refine ⟨first :: collected, ?_, ?_, ?_⟩
      · exact succeedInTurn_append_iff.2 ⟨first, _, r, rfl, hturn, hflat⟩
      · simp [hvalues]
      · simp [hsizes, hturn.length_eq]

/-- Where one of the groups fails, so does one of all their members. -/
theorem FailInTurn.ungrouped (h : FailInTurn grammar source (groups.map .seq) p) :
    FailInTurn grammar source groups.flatten p := by
  induction groups generalizing p with
  | nil => cases h
  | cons group rest ih =>
    refine failInTurn_append_iff.2 ?_
    rcases failInTurn_cons_iff.1 h with hfails | ⟨found, hfound, hrest⟩
    · cases hfails with
      | seq hturn => exact Or.inl hturn
    · cases hfound with
      | @seq _ _ r first span hturn hspan =>
        rw [hspan.2] at hrest
        exact Or.inr ⟨first, r, hturn, ih hrest⟩

/-- What a sequence of sequences is judged to do has its like in what the sequence of all their
    members is judged to do. -/
theorem Judged.exists_ungrouped {outcome : Option Match}
    (h : Judged grammar source (.seq (groups.map .seq)) p outcome) :
    ∃ outcome', Judged grammar source (.seq groups.flatten) p outcome' ∧
      Match.Alike (Value.GroupedBy (groups.map List.length)) outcome outcome' := by
  cases outcome with
  | none =>
    cases h with
    | seq hturn => exact ⟨none, .seq hturn.ungrouped, trivial⟩
  | some found =>
    cases h with
    | @seq _ _ _ members span hturn hspan =>
      obtain ⟨collected, hflat, hvalues, hsizes⟩ := hturn.ungrouped
      exact ⟨some ⟨_, span⟩, .seq hflat hspan, rfl, members, collected, rfl, rfl, hvalues, hsizes⟩

end Judgements

namespace Matcher

variable {source : Text} {progress : Progress} {limits : Limits}

end Matcher

/-! ## Alternations of alternations -/

/-- A tree of choices, with leaves of type `α`. -/
inductive Choice (α : Type) where
  | leaf (a : α)
  /-- One of the branches, tried in order. -/
  | among (branches : List (Choice α))

namespace Choice

variable {α β κ : Type}

/-- Induction over the tree. -/
@[elab_as_elim, induction_eliminator]
theorem induction {motive : Choice α → Prop} (leaf : ∀ a, motive (.leaf a))
    (among : ∀ branches, (∀ branch ∈ branches, motive branch) → motive (.among branches))
    (tree : Choice α) : motive tree :=
  @Choice.rec α motive (fun branches => ∀ branch ∈ branches, motive branch) leaf among nofun
    (fun _ _ hfirst hrest => List.forall_mem_cons.2 ⟨hfirst, hrest⟩) tree

mutual

/-- What the tree comes to, by what its leaves are and what is made of the branches of a choice. -/
def fold (leaf : α → β) (among : List β → β) : Choice α → β
  | .leaf a => leaf a
  | .among branches => among (foldAll leaf among branches)

/-- What each of the trees comes to. -/
def foldAll (leaf : α → β) (among : List β → β) : List (Choice α) → List β
  | [] => []
  | first :: rest => fold leaf among first :: foldAll leaf among rest

end

theorem foldAll_eq_map (leaf : α → β) (among : List β → β) (branches : List (Choice α)) :
    foldAll leaf among branches = branches.map (fold leaf among) := by
  induction branches with
  | nil => rfl
  | cons first rest ih => simp [foldAll, ih]

theorem fold_among (leaf : α → β) (among : List β → β) (branches : List (Choice α)) :
    fold leaf among (.among branches) = among (branches.map (fold leaf among)) := by
  rw [fold, foldAll_eq_map]

/-- The leaves from left to right. -/
def leaves : Choice α → List α :=
  fold (fun a => [a]) List.flatten

/-- How many choices lie one inside the other, at most. -/
def height : Choice α → Nat :=
  fold (fun _ => 0) fun heights => 1 + heights.foldr max 0

/-- The alternations of the tree, with a matcher for each leaf. -/
def matcher (leaf : α → Matcher κ) : Choice α → Matcher κ :=
  fold leaf .alt

/-- What the alternations of the tree do, by what the leaves do. -/
def behaviour (act : α → Behaviour) : Choice α → Behaviour :=
  fold act .alternation

@[simp]
theorem leaves_among (branches : List (Choice α)) :
    leaves (.among branches) = branches.flatMap leaves :=
  fold_among ..

example : leaves (.among [.leaf 1, .among [], .among [.leaf 2, .leaf 3]]) = [1, 2, 3] := rfl

@[simp]
theorem matcher_among (leaf : α → Matcher κ) (branches : List (Choice α)) :
    matcher leaf (.among branches) = .alt (branches.map (matcher leaf)) :=
  fold_among ..

@[simp]
theorem behaviour_among (act : α → Behaviour) (branches : List (Choice α)) :
    behaviour act (.among branches) = .alternation (branches.map (behaviour act)) :=
  fold_among ..

@[simp]
theorem height_among (branches : List (Choice α)) :
    height (.among branches) = 1 + (branches.map height).foldr max 0 :=
  fold_among ..

theorem height_lt {branch : Choice α} {branches : List (Choice α)} (h : branch ∈ branches) :
    branch.height < (among branches).height := by
  rw [height_among]
  induction branches with
  | nil => cases h
  | cons first rest ih =>
    simp only [List.map_cons, List.foldr_cons]
    rcases List.mem_cons.1 h with rfl | hrest
    · omega
    · have := ih hrest
      omega

end Choice

namespace Behaviour

theorem alternation_singleton (behaviour : Behaviour) : alternation [behaviour] = behaviour := by
  refine Eq.trans (bind_congr fun outcome => ?_) (bind_pure behaviour)
  cases outcome <;> rfl

/-- An alternation of alternations is the one alternation of all their branches. -/
theorem alternation_flatten (groups : List (List Behaviour)) :
    alternation (groups.map alternation) = alternation groups.flatten := by
  induction groups with
  | nil => rfl
  | cons group rest ih =>
    rw [List.flatten_cons, alternation_append, ← ih]
    rfl

end Behaviour

theorem Matcher.behave_alt_map {ι κ : Type} {grammar : Grammar κ} {nesting rounds : Nat}
    (members : List ι) (branch : ι → Matcher κ) :
    (alt (members.map branch)).behave grammar rounds (nesting + 1)
      = .alternation (members.map fun i => (branch i).behave grammar rounds nesting) := by
  show Behaviour.alternation ((members.map branch).map _) = _
  rw [List.map_map]
  rfl

namespace Choice

variable {α κ : Type}

/-- Whatever the leaves do, the tree does what the one alternation of them does. -/
theorem behaviour_eq_alternation (tree : Choice α) (act : α → Behaviour) :
    tree.behaviour act = .alternation (tree.leaves.map act) := by
  induction tree with
  | leaf a => exact (Behaviour.alternation_singleton (act a)).symm
  | among branches ih =>
    -- each branch is an alternation of its own leaves
    have hbranches : branches.map (behaviour act)
        = (branches.map fun branch => branch.leaves.map act).map Behaviour.alternation := by
      rw [List.map_map]
      exact List.map_congr_left ih
    rw [behaviour_among, hbranches, Behaviour.alternation_flatten, leaves_among, List.map_flatMap]
    rfl

section Limits

variable {grammar : Grammar κ} {nesting nesting' rounds : Nat}

/-- The matchers at the leaves may run within the limits that the tree has. -/
theorem matcher_extendedBy (tree : Choice α) (leaf : α → Matcher κ) (h : nesting ≤ nesting') :
    ((tree.matcher leaf).behave grammar rounds nesting).ExtendedBy
      (tree.behaviour fun a => (leaf a).behave grammar rounds nesting') := by
  induction tree generalizing nesting with
  | leaf a => exact (leaf a).behave_extendedBy (Nat.le_refl rounds) h
  | among branches ih =>
    cases nesting with
    | zero => exact Attempt.exhaust_extendedBy _
    | succ nesting =>
      rw [matcher_among, Matcher.behave_alt_map, behaviour_among]
      exact Behaviour.alternation_extendedBy fun branch hbranch => ih branch hbranch (by omega)

/-- Limits that are wider by the height of the tree leave as much to the matchers at the leaves. -/
theorem extendedBy_matcher (tree : Choice α) (leaf : α → Matcher κ)
    (h : nesting + tree.height ≤ nesting') :
    (tree.behaviour fun a => (leaf a).behave grammar rounds nesting).ExtendedBy
      ((tree.matcher leaf).behave grammar rounds nesting') := by
  induction tree generalizing nesting' with
  | leaf a => exact (leaf a).behave_extendedBy (Nat.le_refl rounds) h
  | among branches ih =>
    cases nesting' with
    | zero =>
      rw [height_among] at h
      omega
    | succ nesting' =>
      rw [matcher_among, Matcher.behave_alt_map, behaviour_among]
      refine Behaviour.alternation_extendedBy fun branch hbranch => ih branch hbranch ?_
      have := height_lt hbranch
      omega

end Limits

/-- A tree of alternations does what the one alternation of its leaves does, from left to right, on
    every text and from every cursor, whatever the leaves do: they may leave the cursor anywhere and
    raise faults. The two return the same or raise the same fault, leave the cursor at the same
    place and use the feed in the same way; and if it is noted when leaves are called, the same ones
    are called in the same order and at the same cursors. Where the leaves are matchers, limits on
    the nesting count the alternations above them: what the tree does, the single alternation does
    with one more matcher in progress, and what that does, the tree does with as many more as it is
    high, unless the run has been given up. -/
theorem flattens (tree : Choice α) (act : α → Behaviour) (label : α → Text) (leaf : α → Matcher κ)
    (grammar : Grammar κ) (nesting rounds : Nat) :
    tree.behaviour act = .alternation (tree.leaves.map act) ∧
    (tree.behaviour fun a => .observed (label a) (act a))
      = .alternation (tree.leaves.map fun a => .observed (label a) (act a)) ∧
    ((tree.matcher leaf).behaviour grammar ⟨nesting, rounds⟩).ExtendedBy
      ((Matcher.alt (tree.leaves.map leaf)).behaviour grammar ⟨nesting + 1, rounds⟩) ∧
    ((Matcher.alt (tree.leaves.map leaf)).behaviour grammar ⟨nesting + 1, rounds⟩).ExtendedBy
      ((tree.matcher leaf).behaviour grammar ⟨nesting + tree.height, rounds⟩) := by
  have hflat : (Matcher.alt (tree.leaves.map leaf)).behaviour grammar ⟨nesting + 1, rounds⟩
      = tree.behaviour fun a => (leaf a).behave grammar rounds nesting := by
    rw [behaviour_eq_alternation]
    exact Matcher.behave_alt_map tree.leaves leaf
  rw [hflat]
  exact ⟨tree.behaviour_eq_alternation act, tree.behaviour_eq_alternation _,
    tree.matcher_extendedBy leaf (Nat.le_refl nesting),
    tree.extendedBy_matcher leaf (Nat.le_refl _)⟩

end Choice

end CursorGrammar
