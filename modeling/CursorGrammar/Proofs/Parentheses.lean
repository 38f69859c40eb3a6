import CursorGrammar.Proofs.Contract
import CursorGrammar.Proofs.Characters
import CursorGrammar.Proofs.Tiling

set_option autoImplicit false

/-! # Blocks of parentheses

A block is said here by counting: its parentheses are all closed at its end, and not before. The
grammar of blocks says it by calling itself: a block is any number of blocks between parentheses.
Both mean the same. The rule matches at an offset if and only if the text goes on with a block
there, and its match shows which blocks are inside which. -/

namespace CursorGrammar

namespace Text

/-- How many parentheses are open at the end of the text. -/
def depth (t : Text) : Int :=
  t.count '(' - t.count ')'

/-- The text is made of parentheses and begins with an opening one, and its end is the first place
    at which all of them are closed. -/
structure IsBlock (t : Text) : Prop where
  parens : ∀ c ∈ t, c = '(' ∨ c = ')'
  opens : t.head? = some '('
  closed : t.depth = 0
  first : ∀ u : Text, u <+: t → u ≠ [] → u ≠ t → u.depth ≠ 0

/-- The texts one after the other between two parentheses. -/
def enclose (blocks : List Text) : Text :=
  '(' :: (blocks.flatten ++ [')'])

/-- The blocks are those immediately inside the text. -/
def Encloses (t : Text) (blocks : List Text) : Prop :=
  t = enclose blocks ∧ ∀ block ∈ blocks, block.IsBlock

variable {t u v after : Text} {blocks blocks' : List Text}

/-! ## Counting parentheses -/

@[simp]
theorem depth_nil : depth [] = 0 :=
  rfl

@[simp]
theorem depth_opening (t : Text) : depth ('(' :: t) = t.depth + 1 := by
  simp [depth]
  omega

@[simp]
theorem depth_append (t u : Text) : depth (t ++ u) = t.depth + u.depth := by
  simp only [depth, List.count_append]
  omega

/-- One character closes one parenthesis at most. -/
theorem depth_concat_ge (t : Text) (c : Char) : t.depth - 1 ≤ depth (t ++ [c]) := by
  have hone : [c].count ')' ≤ 1 := List.count_le_length
  rw [depth_append]
  simp only [depth]
  omega

/-! ## Where blocks end -/

theorem IsBlock.ne_nil (h : t.IsBlock) : t ≠ [] := by
  rintro rfl
  cases h.opens

/-- By the time that no parenthesis is open any more there has been a block. -/
theorem exists_block (hparens : ∀ c ∈ t, c = '(' ∨ c = ')') (hopens : t.head? = some '(')
    (hdepth : t.depth ≤ 0) : ∃ u : Text, u <+: t ∧ u.IsBlock := by
  induction hlength : t.length using Nat.strongRecOn generalizing t with
  | ind length ih =>
    by_cases hearlier : ∃ u : Text, u <+: t ∧ u ≠ [] ∧ u ≠ t ∧ u.depth ≤ 0
    · obtain ⟨u, hbegins, hne, hproper, hdepth'⟩ := hearlier
      have hshorter : u.length < length := by
        rw [← hlength]
        exact Nat.lt_of_le_of_ne hbegins.length_le fun h => hproper (hbegins.eq_of_length h)
      have hopens' : u.head? = some '(' := by
        obtain ⟨w, rfl⟩ := hbegins
        rwa [List.head?_append_of_ne_nil u hne] at hopens
      obtain ⟨v, hv, hblock⟩ := ih _ hshorter
        (fun c hc => hparens c (hbegins.subset hc)) hopens' hdepth' rfl
      exact ⟨v, hv.trans hbegins, hblock⟩
    · -- no shorter beginning will do, so the last character has closed the last parenthesis
      have hpositive : ∀ u : Text, u <+: t → u ≠ [] → u ≠ t → 0 < u.depth := fun u hu hne hproper =>
        Int.not_le.1 fun hle => hearlier ⟨u, hu, hne, hproper, hle⟩
      refine ⟨t, List.prefix_rfl, hparens, hopens, ?_, fun u hu hne hproper =>
        Int.ne_of_gt (hpositive u hu hne hproper)⟩
      have hsome : t ≠ [] := by
        rintro rfl
        cases hopens
      obtain ⟨init, c, rfl⟩ := (List.eq_nil_or_concat' t).resolve_left hsome
      rcases eq_or_ne init [] with rfl | hne
      · obtain rfl : c = '(' := by simpa using hopens
        cases hdepth
      · have := hpositive init (List.prefix_append ..) hne (by simp)
        have := depth_concat_ge init c
        omega

theorem IsBlock.depth_pos (h : t.IsBlock) (hu : u <+: t) (hne : u ≠ []) (hproper : u ≠ t) :
    0 < u.depth := by
  by_contra hle
  have hopens : u.head? = some '(' := by
    obtain ⟨w, rfl⟩ := hu
    rw [← List.head?_append_of_ne_nil u hne]
    exact h.opens
  obtain ⟨v, hv, hblock⟩ :=
    exists_block (fun c hc => h.parens c (hu.subset hc)) hopens (Int.not_lt.1 hle)
  refine h.first v (hv.trans hu) hblock.ne_nil ?_ hblock.closed
  rintro rfl
  exact hproper (hu.eq_of_length (Nat.le_antisymm hu.length_le hv.length_le))

theorem IsBlock.depth_nonneg (h : t.IsBlock) (hu : u <+: t) : 0 ≤ u.depth := by
  by_cases hne : u = []
  · rw [hne]
    exact Int.le_refl 0
  · by_cases hproper : u = t
    · exact Int.le_of_eq (h.closed.symm.trans (congrArg depth hproper.symm))
    · exact Int.le_of_lt (h.depth_pos hu hne hproper)

/-- A text begins with one block at most. -/
theorem IsBlock.eq_of_prefix (h : u.IsBlock) (h' : v.IsBlock) (hu : u <+: t) (hv : v <+: t) :
    u = v := by
  by_contra hne
  rcases List.prefix_or_prefix_of_prefix hu hv with huv | hvu
  · exact h'.first u huv h.ne_nil hne h.closed
  · exact h.first v hvu h'.ne_nil (Ne.symm hne) h'.closed

/-! ## Blocks inside blocks -/

theorem depth_flatten (h : ∀ block ∈ blocks, block.IsBlock) : depth blocks.flatten = 0 := by
  induction blocks with
  | nil => rfl
  | cons block rest ih =>
    obtain ⟨hblock, hrest⟩ := List.forall_mem_cons.1 h
    rw [List.flatten_cons, depth_append, hblock.closed, ih hrest]
    rfl

theorem depth_nonneg_of_prefix_flatten (h : ∀ block ∈ blocks, block.IsBlock)
    (hu : u <+: blocks.flatten) : 0 ≤ u.depth := by
  induction blocks generalizing u with
  | nil =>
    obtain rfl := List.prefix_nil.1 hu
    exact Int.le_refl 0
  | cons block rest ih =>
    obtain ⟨hblock, hrest⟩ := List.forall_mem_cons.1 h
    rcases prefix_append_cases hu with hfirst | ⟨w, rfl, hw⟩
    · exact hblock.depth_nonneg hfirst
    · rw [depth_append, hblock.closed, Int.zero_add]
      exact ih hrest hw

/-- Blocks one after the other between two parentheses make a block. -/
theorem isBlock_enclose (h : ∀ block ∈ blocks, block.IsBlock) : (enclose blocks).IsBlock := by
  refine ⟨?_, rfl, ?_, ?_⟩
  · intro c hc
    rcases List.mem_cons.1 hc with rfl | hc
    · exact Or.inl rfl
    · rcases List.mem_append.1 hc with hc | hc
      · obtain ⟨block, hmem, hc⟩ := List.mem_flatten.1 hc
        exact (h block hmem).parens c hc
      · exact Or.inr (List.mem_singleton.1 hc)
  · rw [enclose, depth_opening, depth_append, depth_flatten h]
    rfl
  · intro u hu hne hproper
    rcases List.prefix_cons_iff.1 hu with rfl | ⟨w, rfl, hw⟩
    · exact absurd rfl hne
    · rcases List.prefix_concat_iff.1 hw with rfl | hw
      · exact absurd rfl hproper
      · have := depth_nonneg_of_prefix_flatten h hw
        rw [depth_opening]
        omega

/-- If neither another block nor a closing parenthesis follows on some blocks, then no block begins
    with a parenthesis that is opened before them. -/
theorem not_prefix_of_unclosed (h : ∀ block ∈ blocks, block.IsBlock)
    (hafter : ∀ t : Text, t <+: after → ¬t.IsBlock) (hclose : after.head? ≠ some ')') (t : Text)
    (ht : t <+: '(' :: (blocks.flatten ++ after)) : ¬t.IsBlock := by
  intro hblock
  rcases List.prefix_cons_iff.1 ht with rfl | ⟨w, rfl, hw⟩
  · exact hblock.ne_nil rfl
  · have hdepth := hblock.closed
    rw [depth_opening] at hdepth
    rcases prefix_append_cases hw with hw | ⟨x, rfl, hx⟩
    · have := depth_nonneg_of_prefix_flatten h hw
      omega
    · rw [depth_append, depth_flatten h] at hdepth
      cases x with
      | nil =>
        rw [depth_nil] at hdepth
        omega
      | cons c rest =>
        have hparens : ∀ d ∈ c :: rest, d = '(' ∨ d = ')' := fun d hd =>
          hblock.parens d (List.mem_cons_of_mem _ (List.mem_append_right _ hd))
        have hnext : after.head? = some c := by
          obtain ⟨_, rfl⟩ := hx
          rfl
        rcases hparens c (List.mem_cons_self ..) with rfl | rfl
        · obtain ⟨u, hu, hblock'⟩ := exists_block hparens rfl (by omega)
          exact hafter u (hu.trans hx) hblock'
        · exact hclose hnext

/-- A text is cut into blocks in one way at most. -/
theorem eq_of_flatten_eq (h : ∀ block ∈ blocks, block.IsBlock)
    (h' : ∀ block ∈ blocks', block.IsBlock) (heq : blocks.flatten = blocks'.flatten) :
    blocks = blocks' := by
  induction blocks generalizing blocks' with
  | nil =>
    cases blocks' with
    | nil => rfl
    | cons block rest =>
      have hnil := (List.append_eq_nil_iff.1 heq.symm).1
      exact absurd hnil (h' block (List.mem_cons_self ..)).ne_nil
  | cons block rest ih =>
    obtain ⟨hblock, hrest⟩ := List.forall_mem_cons.1 h
    cases blocks' with
    | nil => exact absurd (List.append_eq_nil_iff.1 heq).1 hblock.ne_nil
    | cons block' rest' =>
      obtain ⟨hblock', hrest'⟩ := List.forall_mem_cons.1 h'
      rw [List.flatten_cons, List.flatten_cons] at heq
      obtain rfl := hblock.eq_of_prefix hblock' (List.prefix_append block rest.flatten)
        (heq ▸ List.prefix_append block' rest'.flatten)
      rw [ih hrest hrest' (List.append_cancel_left heq)]

theorem encloses_enclose_iff (h : ∀ block ∈ blocks, block.IsBlock) :
    (enclose blocks).Encloses blocks' ↔ blocks' = blocks := by
  constructor
  · rintro ⟨heq, h'⟩
    unfold enclose at heq
    exact (eq_of_flatten_eq h h' (List.append_cancel_right (List.cons.inj heq).2)).symm
  · rintro rfl
    exact ⟨rfl, h⟩

end Text

/-! ## Blocks -/

/-- The pieces of the text that the matches cover, in turn. -/
def Match.pieces (source : Text) (items : List Match) : List Text :=
  items.map fun item => source.slice item.span.start item.span.stop

/-- The match reports a block of the text: it covers one, and between the matches of the two
    parentheses its value holds one match for each of the blocks immediately inside, which report
    these in turn. -/
inductive Match.ReportsBlock (source : Text) : Match → Prop
  | intro {items : List Match} {opening inner closing span : Span}
      (hblock : (source.slice span.start span.stop).IsBlock)
      (hinside : ∀ blocks, (source.slice span.start span.stop).Encloses blocks ↔
        blocks = Match.pieces source items)
      (hitems : ∀ item ∈ items, ReportsBlock source item) :
      ReportsBlock source ⟨.ofMatches [⟨.text ['('], opening⟩, ⟨.ofMatches items, inner⟩,
        ⟨.text [')'], closing⟩], span⟩

/-- Nothing is told if the text does not go on with a block at the offset, and otherwise a match
    that covers the block and reports it. -/
def Match.TellsBlock (source : Text) (p : Int) : Option Match → Prop
  | none => ∀ t : Text, t <+: source.sliceFrom p → ¬t.IsBlock
  | some found => ∃ t : Text, (∀ u : Text, u <+: source.sliceFrom p ∧ u.IsBlock ↔ u = t) ∧
      found.span.Covers p (p + t.length) ∧ found.ReportsBlock source

section

variable {source : Text} {p : Int} {items : List Match}

/-- The piece of the text that a span covers from an offset on. -/
theorem Span.Covers.slice_eq {t : Text} {span : Span} (hrange : source.InRange p)
    (h : span.Covers p (p + t.length)) (ht : t <+: source.sliceFrom p) :
    source.slice span.start span.stop = t := by
  have htext : Feed.text ⟨source, 0⟩ span = (source.sliceFrom p).take t.length :=
    h.text t.length hrange
  exact htext.trans (List.prefix_iff_eq_take.1 ht).symm

theorem Match.ReportsBlock.isBlock {found : Match} (h : found.ReportsBlock source) :
    Text.IsBlock (source.slice found.span.start found.span.stop) := by
  cases h with
  | intro hblock _ _ => exact hblock

theorem Match.pieces_isBlock (h : ∀ item ∈ items, item.ReportsBlock source) :
    ∀ block ∈ Match.pieces source items, block.IsBlock := by
  intro block hblock
  obtain ⟨item, hitem, rfl⟩ := List.mem_map.1 hblock
  exact (h item hitem).isBlock

/-- Matches that report blocks in turn, between parentheses, tell of the block around them. -/
theorem Match.tellsBlock_of_items {after : Text} {opening inner closing span : Span}
    (hrange : source.InRange p) (h : ∀ item ∈ items, item.ReportsBlock source)
    (hslice : source.sliceFrom p = Text.enclose (Match.pieces source items) ++ after)
    (hspan : span.Covers p (p + (Text.enclose (Match.pieces source items)).length)) :
    Match.TellsBlock source p (some ⟨.ofMatches [⟨.text ['('], opening⟩,
      ⟨.ofMatches items, inner⟩, ⟨.text [')'], closing⟩], span⟩) := by
  have hblocks := Match.pieces_isBlock h
  have hbegins : Text.enclose (Match.pieces source items) <+: source.sliceFrom p :=
    ⟨after, hslice.symm⟩
  have hblock := Text.isBlock_enclose hblocks
  have hpiece := hspan.slice_eq hrange hbegins
  refine ⟨_, fun u => ⟨?_, ?_⟩, hspan, .intro ?_ ?_ h⟩
  · rintro ⟨hu, hblock'⟩
    exact hblock'.eq_of_prefix hblock hu hbegins
  · rintro rfl
    exact ⟨hbegins, hblock⟩
  · rw [hpiece]
    exact hblock
  · rw [hpiece]
    exact fun blocks => Text.encloses_enclose_iff hblocks

/-- At the offset a block is judged to do what tells whether there is one, and which. -/
def JudgedBlock (source : Text) (p : Int) : Prop :=
  ∃ outcome, Judged .blocks source (.call (.rule ['b'])) p outcome ∧
    Match.TellsBlock source p outcome

/-- Where blocks are judged so, rounds of them take all the blocks with which the text goes on. -/
theorem exists_repeats_blocks (count : Nat) (hrange : source.InRange p)
    (h : ∀ q, p ≤ q → source.InRange q → JudgedBlock source q) :
    ∃ items q, Repeats .blocks source (.call (.rule ['b'])) none count p items q false ∧
      q = p + (Match.pieces source items).flatten.length ∧
      source.sliceFrom p = (Match.pieces source items).flatten ++ source.sliceFrom q ∧
      (∀ item ∈ items, item.ReportsBlock source) ∧ Match.TellsBlock source q none := by
  induction hleft : (source.length - p).toNat using Nat.strongRecOn generalizing count p with
  | ind left ih =>
    obtain ⟨outcome, hjudged, htells⟩ := h p (Int.le_refl p) hrange
    cases outcome with
    | none =>
      exact ⟨[], p, .failed nofun hjudged, (Int.add_zero p).symm, rfl, List.forall_mem_nil _,
        htells⟩
    | some found =>
      obtain ⟨t, honly, hspan, hreport⟩ := htells
      obtain ⟨⟨after, hslice⟩, hblock⟩ := (honly t).2 rfl
      obtain ⟨hrange', hafter⟩ := Text.sliceFrom_of_append hrange hslice.symm
      have hpos := List.length_pos_iff.2 hblock.ne_nil
      have hle := hrange'.2
      have hstart := hspan.1
      have hstop := hspan.2
      obtain ⟨items, q, hrest, hq, hsplit, hreports, hend⟩ := ih _ (by omega) (count + 1) hrange'
        (fun q hq => h q (by omega)) rfl
      have hpieces : Match.pieces source (found :: items) = t :: Match.pieces source items :=
        congrArg (· :: _) (hspan.slice_eq hrange ⟨after, hslice⟩)
      rw [← hstop] at hrest
      refine ⟨found :: items, q, .more nofun hjudged (fun _ => by omega) hrest, ?_, ?_,
        List.forall_mem_cons.2 ⟨hreport, hreports⟩, hend⟩
      · rw [hpieces, List.flatten_cons, List.length_append]
        omega
      · rw [hpieces, List.flatten_cons, List.append_assoc, ← hsplit, hafter, hslice]

theorem exists_parenthesis {c : Char} (hrange : source.InRange p)
    (h : (source.sliceFrom p).head? = some c) :
    ∃ span : Span, span.Covers p (p + 1) ∧
      Succeeds Grammar.blocks source (.char [c]) p ⟨.text [c], span⟩ :=
  exists_succeeds_char hrange h

/-- If blocks are judged so later on, then also here. -/
theorem judgedBlock_of_later (hrange : source.InRange p)
    (h : ∀ q, p < q → source.InRange q → JudgedBlock source q) : JudgedBlock source p := by
  have hcall : (Grammar.blocks (.rule ['b'])).matcher?
      = some (.seq [.char ['('], .quant (.call (.rule ['b'])) 0 none, .char [')']]) := rfl
  by_cases hopen : (source.sliceFrom p).head? = some '('
  · obtain ⟨rest, hslice⟩ := List.head?_eq_some_iff.1 hopen
    obtain ⟨hrange', hrest⟩ := Text.sliceFrom_eq_cons hrange hslice
    obtain ⟨opening, hopening, hfirst⟩ := exists_parenthesis hrange hopen
    obtain ⟨items, q, hrounds, hq, hsplit, hreports, hend⟩ :=
      exists_repeats_blocks 0 hrange' fun q hq => h q (by omega)
    obtain ⟨hle, hrange''⟩ := hrounds.bounds hrange'
    obtain ⟨inner, hinner⟩ := Span.exists_covers hrange'.1 hle
    have hmiddle : Succeeds .blocks source (.quant (.call (.rule ['b'])) 0 none) (p + 1)
        ⟨.ofMatches items, inner⟩ := .quant hrounds (Or.inr (Int.natCast_nonneg _)) hinner
    rw [← hopening.2] at hmiddle
    rw [hrest] at hsplit
    by_cases hclose : (source.sliceFrom q).head? = some ')'
    · obtain ⟨after, hslice'⟩ := List.head?_eq_some_iff.1 hclose
      obtain ⟨closing, hclosing, hlast⟩ := exists_parenthesis hrange'' hclose
      rw [← hinner.2] at hlast
      have hwhole : source.sliceFrom p = Text.enclose (Match.pieces source items) ++ after := by
        rw [hslice, hsplit, hslice']
        simp [Text.enclose]
      have hstop : closing.stop = p + (Text.enclose (Match.pieces source items)).length := by
        rw [hclosing.2, hq, Text.enclose, List.length_cons, List.length_append,
          List.length_singleton]
        omega
      obtain ⟨span, hspan, hseq⟩ := SucceedInTurn.exists_seq hrange
        (.cons hfirst (.cons hmiddle (.cons hlast .nil)))
      rw [hstop] at hspan
      refine ⟨some ⟨_, span⟩, Succeeds.call hcall hseq, ?_⟩
      exact Match.tellsBlock_of_items hrange hreports hwhole hspan
    · have hlast : Fails .blocks source (.char [')']) inner.stop := by
        rw [hinner.2]
        exact fails_char_iff.2 hclose
      refine ⟨none, .call hcall (.seq (.later hfirst (.later hmiddle (.first hlast)))), ?_⟩
      intro t ht
      rw [hslice, hsplit] at ht
      exact Text.not_prefix_of_unclosed (Match.pieces_isBlock hreports) hend hclose t ht
  · refine ⟨none, .call hcall (.seq (.first (fails_char_iff.2 hopen))), ?_⟩
    rintro t ⟨rest, hslice⟩ hblock
    rw [← hslice, List.head?_append_of_ne_nil t hblock.ne_nil] at hopen
    exact hopen hblock.opens

/-- Inside the text, every offset is judged so. -/
theorem judgedBlock (hrange : source.InRange p) : JudgedBlock source p := by
  induction hleft : (source.length - p).toNat using Nat.strongRecOn generalizing p with
  | ind left ih =>
    refine judgedBlock_of_later hrange fun q hlt hrange' => ?_
    have := hrange'.2
    exact ih _ (by omega) hrange' rfl

/-- The grammar of blocks recognises blocks. From every cursor inside the text, the rule returns
    within all limits that are wide enough. If the text goes on with a block, which is then the only
    one, it returns a match that covers the block, with the cursor moved past it; in this match and
    in all those inside it there is one match for each of the blocks immediately inside. Otherwise
    it returns nothing, with the cursor where it was. -/
theorem Grammar.blocks_tellsBlock (hrange : source.InRange p) :
    ∃ outcome, Match.TellsBlock source p outcome ∧ Limits.Eventually fun limits =>
      ((Matcher.call (.rule ['b'])).behaviour .blocks limits).Returns source p outcome
        (Match.stopFrom p outcome) := by
  obtain ⟨outcome, hjudged, htells⟩ := judgedBlock hrange
  exact ⟨outcome, htells, hjudged.eventually_returns hrange⟩

end

/-- Two blocks are inside the one at the beginning, and the parenthesis at the end is left open. -/
theorem Grammar.blocks_tellsBlock_nested :
    let source : Text := ['(', '(', ')', '(', ')', ')', '(']
    source.InRange 0 ∧ source.InRange 6 ∧
      (∃ found, found.span.Covers 0 6 ∧ found.ReportsBlock source ∧
        Limits.Eventually fun limits =>
          ((Matcher.call (.rule ['b'])).behaviour .blocks limits).Returns source 0 (some found)
            found.span.stop) ∧
      Limits.Eventually fun limits =>
        ((Matcher.call (.rule ['b'])).behaviour .blocks limits).Returns source 6 none 6 := by
  intro source
  have hrange : source.InRange 0 := ⟨by decide, by decide⟩
  have hrange' : source.InRange 6 := ⟨by decide, by decide⟩
  obtain ⟨outcome, htells, hreturns⟩ := Grammar.blocks_tellsBlock hrange
  obtain ⟨outcome', htells', hreturns'⟩ := Grammar.blocks_tellsBlock hrange'
  refine ⟨hrange, hrange', ?_, ?_⟩
  · -- a block of two empty ones
    have hinner : ∀ block ∈ [Text.enclose [], Text.enclose []], block.IsBlock := by
      simpa using Text.isBlock_enclose (List.forall_mem_nil _)
    have hblock := Text.isBlock_enclose hinner
    have hbegins : Text.enclose [Text.enclose [], Text.enclose []] <+: source.sliceFrom 0 := by
      decide
    cases outcome with
    | none => exact absurd hblock (htells _ hbegins)
    | some found =>
      obtain ⟨t, honly, hspan, hreport⟩ := htells
      cases (honly _).1 ⟨hbegins, hblock⟩
      exact ⟨found, hspan, hreport, hreturns⟩
  · cases outcome' with
    | none => exact hreturns'
    | some found =>
      obtain ⟨t, honly, -, -⟩ := htells'
      obtain ⟨hbegins, hblock⟩ := (honly t).2 rfl
      rcases List.prefix_cons_iff.1 hbegins with rfl | ⟨w, rfl, hw⟩
      · exact absurd rfl hblock.ne_nil
      · cases List.prefix_nil.1 hw
        cases hblock.closed

end CursorGrammar
