import CursorGrammar.Proofs.Refinement

set_option autoImplicit false

/-! # Matches tile the text

The matches in the value of a match lie in the text without gaps and without overlaps: a sequence
has one for each of its members and a repetition one for each round, each begins where the one
before it ends, and together they cover what the whole covers. An option covers nothing, and what
it has looked ahead at begins where it stands. So the text that a match covers is what its leaves
cover, read from left to right, if the leaves below options are left out. -/

namespace CursorGrammar

/-! ## Matches in a row -/

/-- The matches abut between two offsets: the first begins at the one, each next begins where the
    one before it ends, and the last ends at the other. If there are none, the offsets are the
    same. -/
def Match.Abut : Int → List Match → Int → Prop
  | start, [], stop => start = stop
  | start, first :: rest, stop => first.span.start = start ∧ Match.Abut first.span.stop rest stop

/-- What the spans of the matches cover, in turn. -/
def Feed.textOfAll (feed : Feed) (ms : List Match) : Text :=
  ms.flatMap fun m => feed.text m.span

section

variable {feed : Feed} {start stop : Int} {ms : List Match}

theorem Match.Abut.le (h : Match.Abut start ms stop) : start ≤ stop := by
  induction ms generalizing start with
  | nil => exact Int.le_of_eq h
  | cons first rest ih =>
    obtain ⟨rfl, hrest⟩ := h
    exact Int.le_trans first.span.start_le_stop (ih hrest)

/-- Matches that abut cover the piece of the text between the two offsets. -/
theorem Match.Abut.textOfAll (hstart : 0 ≤ start) (h : Match.Abut start ms stop) :
    feed.textOfAll ms = feed.source.slice start stop := by
  induction ms generalizing start with
  | nil =>
    cases h
    simp [Feed.textOfAll]
  | cons first rest ih =>
    obtain ⟨rfl, hrest⟩ := h
    have hmiddle := first.span.start_le_stop
    have hothers := ih (Int.le_trans hstart hmiddle) hrest
    calc feed.textOfAll (first :: rest)
        = feed.text first.span ++ feed.textOfAll rest := List.flatMap_cons
      _ = feed.source.slice first.span.start first.span.stop
            ++ feed.source.slice first.span.stop stop := by rw [hothers]; rfl
      _ = feed.source.slice first.span.start stop :=
          Text.slice_append_slice _ hstart hmiddle hrest.le

end

/-! ## Leaves -/

mutual

/-- The matches of leaves in a value, from left to right. A match directly inside another, and not
    in a list, is one that an option has looked ahead at, and is left out. -/
def Value.leaves : Value → List Match
  | .found (.text content) span => [⟨.text content, span⟩]
  | .found (.list items) _ => Value.leavesOfAll items
  | _ => []

/-- The matches of leaves in the values in turn. -/
def Value.leavesOfAll : List Value → List Match
  | [] => []
  | item :: items => item.leaves ++ Value.leavesOfAll items

end

/-- The matches of leaves in a match, from left to right, without those below an option. -/
def Match.leaves (m : Match) : List Match :=
  m.toValue.leaves

section

variable {content : Text} {span : Span}

@[simp]
theorem Match.leaves_text : (Match.mk (.text content) span).leaves = [⟨.text content, span⟩] := by
  simp [Match.leaves, Match.toValue, Value.leaves]

@[simp]
theorem Match.leaves_ofMatches (ms : List Match) :
    (Match.mk (.ofMatches ms) span).leaves = ms.flatMap Match.leaves := by
  simp only [Match.leaves, Match.toValue, Value.ofMatches, Value.leaves]
  induction ms with
  | nil => simp [Value.leavesOfAll]
  | cons first rest ih => simp [Value.leavesOfAll, ih, Match.leaves]

@[simp]
theorem Match.leaves_ofOption (outcome : Option Match) :
    (Match.mk (.ofOption outcome) span).leaves = [] := by
  cases outcome <;> simp [Match.leaves, Match.toValue, Value.ofOption, Value.leaves]

end

/-! ## Matches of a matcher -/

variable {κ : Type} {grammar : Grammar κ}

/-- The match is built as the matcher is, and tiles the text: leaves cover what they say, members
    and rounds abut, and options cover nothing. -/
inductive Tiles (grammar : Grammar κ) (feed : Feed) : Matcher κ → Match → Prop
  | char {value : Text} {c : Char} {span : Span} (hvalue : value.head? = some c)
      (htext : feed.text span = [c]) : Tiles grammar feed (.char value) ⟨.text value, span⟩
  | pattern {p : Pattern} {found : Text} {span : Span} (htext : feed.text span = found) :
      Tiles grammar feed (.pattern p) ⟨.text found, span⟩
  | seq {matchers : List (Matcher κ)} {parts : List Match} {span : Span}
      (hlength : parts.length = matchers.length)
      (hparts : ∀ member ∈ matchers.zip parts, Tiles grammar feed member.1 member.2)
      (habut : Match.Abut span.start parts span.stop) :
      Tiles grammar feed (.seq matchers) ⟨.ofMatches parts, span⟩
  | alt {matchers : List (Matcher κ)} {matcher : Matcher κ} {found : Match}
      (hmem : matcher ∈ matchers) (h : Tiles grammar feed matcher found) :
      Tiles grammar feed (.alt matchers) found
  | quant {matcher : Matcher κ} {least : Int} {most : Option Int} {parts : List Match}
      {span : Span} (hparts : ∀ part ∈ parts, Tiles grammar feed matcher part)
      (habut : Match.Abut span.start parts span.stop) :
      Tiles grammar feed (.quant matcher least most) ⟨.ofMatches parts, span⟩
  | opt {matcher : Matcher κ} {outcome : Option Match} {span : Span}
      (hnothing : span.start = span.stop)
      (hstart : ∀ found ∈ outcome, found.span.start = span.start)
      (hahead : ∀ found ∈ outcome, Tiles grammar feed matcher found) :
      Tiles grammar feed (.opt matcher) ⟨.ofOption outcome, span⟩
  | call {target : κ} {matcher : Matcher κ} {found : Match}
      (htarget : (grammar target).matcher? = some matcher)
      (h : Tiles grammar feed matcher found) : Tiles grammar feed (.call target) found

/-- Where each of the parts covers what its leaves cover, so do all of them together. -/
theorem Feed.textOfAll_leaves {feed : Feed} {parts : List Match}
    (h : ∀ part ∈ parts, feed.textOfAll part.leaves = feed.text part.span) :
    feed.textOfAll (parts.flatMap Match.leaves) = feed.textOfAll parts := by
  unfold Feed.textOfAll at h ⊢
  rw [List.flatMap_assoc, List.flatMap_def, List.map_congr_left h, List.flatMap_def]

/-- The leaves of a match that tiles the text cover what it covers. -/
theorem Tiles.textOfAll_leaves {feed : Feed} {matcher : Matcher κ} {found : Match}
    (h : Tiles grammar feed matcher found) :
    feed.textOfAll found.leaves = feed.text found.span := by
  induction h with
  | char hvalue htext => simp [Feed.textOfAll]
  | pattern htext => simp [Feed.textOfAll]
  | @seq matchers parts span hlength _ habut ih =>
    rw [Match.leaves_ofMatches, Feed.textOfAll_leaves]
    · exact habut.textOfAll span.start_nonneg
    · intro part hpart
      -- every part belongs to some member, as there are as many of them
      rw [← List.map_snd_zip (Nat.le_of_eq hlength)] at hpart
      obtain ⟨member, hmember, rfl⟩ := List.mem_map.1 hpart
      exact ih member hmember
  | alt _ _ ih => exact ih
  | @quant _ _ _ parts span _ habut ih =>
    rw [Match.leaves_ofMatches, Feed.textOfAll_leaves ih]
    exact habut.textOfAll span.start_nonneg
  | opt hnothing _ _ _ => simp [Feed.textOfAll, Feed.text, hnothing]
  | call _ _ ih => exact ih

/-! ## Successes tile -/

section

variable {source : Text} {cursor : Int}

/-- A span from an offset on covers the next characters. -/
theorem Span.Covers.text {p : Int} {span : Span} (size : Nat) (h : span.Covers p (p + size))
    (hrange : source.InRange p) :
    Feed.text ⟨source, cursor⟩ span = (source.sliceFrom p).take size := by
  unfold Feed.text
  rw [h.1, h.2, Text.slice_window hrange (Int.natCast_nonneg size), Int.toNat_natCast]

mutual

/-- What a matcher succeeds with tiles the text. -/
theorem Succeeds.tiles {matcher : Matcher κ} {p : Int} {found : Match}
    (hrange : source.InRange p) :
    Succeeds grammar source matcher p found → Tiles grammar ⟨source, cursor⟩ matcher found
  | .char hvalue hrest hspan => by
    refine .char hvalue ?_
    rw [hspan.text 1 hrange, List.take_one, hrest]
    rfl
  | .pattern _ hbegins hspan => by
    refine .pattern ?_
    rw [hspan.text _ hrange]
    exact (List.prefix_iff_eq_take.1 hbegins).symm
  | .seq h hspan => by
    obtain ⟨hlength, hparts, habut⟩ := h.tiles hrange
    rw [← hspan.1, ← hspan.2] at habut
    exact .seq hlength hparts habut
  | .altFirst h => .alt (List.mem_cons_self ..) (h.tiles hrange)
  | .altLater _ h => by
    cases h.tiles hrange with
    | alt hmem htiles => exact .alt (List.mem_cons_of_mem _ hmem) htiles
  | .quant h _ hspan => by
    obtain ⟨hparts, habut⟩ := h.tiles hrange
    rw [← hspan.1, ← hspan.2] at habut
    exact .quant hparts habut
  | @Succeeds.optFound _ _ _ _ _ found _ h hspan => by
    show Tiles grammar _ _ ⟨.ofOption (some found), _⟩
    refine .opt (hspan.1.trans hspan.2.symm) ?_ ?_
    · rintro _ ⟨⟩
      exact (h.bounds hrange).1.trans hspan.1.symm
    · rintro _ ⟨⟩
      exact h.tiles hrange
  | .optNothing _ hspan => by
    show Tiles grammar _ _ ⟨.ofOption none, _⟩
    exact .opt (hspan.1.trans hspan.2.symm) nofun nofun
  | .call htarget h => .call htarget (h.tiles hrange)

theorem SucceedInTurn.tiles {matchers : List (Matcher κ)} {p q : Int} {collected : List Match}
    (hrange : source.InRange p) : SucceedInTurn grammar source matchers p collected q →
      collected.length = matchers.length ∧
      (∀ member ∈ matchers.zip collected,
        Tiles grammar ⟨source, cursor⟩ member.1 member.2) ∧
      Match.Abut p collected q
  | .nil => ⟨rfl, nofun, rfl⟩
  | .cons h hrest => by
    obtain ⟨hstart, -, hafter⟩ := h.bounds hrange
    obtain ⟨hlength, hparts, habut⟩ := hrest.tiles hafter
    refine ⟨congrArg (· + 1) hlength, ?_, hstart, habut⟩
    rw [List.zip_cons_cons, List.forall_mem_cons]
    exact ⟨h.tiles hrange, hparts⟩

theorem Repeats.tiles {matcher : Matcher κ} {most : Option Int} {count : Nat} {p q : Int}
    {collected : List Match} {stalled : Bool} (hrange : source.InRange p) :
    Repeats grammar source matcher most count p collected q stalled →
      (∀ part ∈ collected, Tiles grammar ⟨source, cursor⟩ matcher part) ∧
      Match.Abut p collected q
  | .full _ => ⟨nofun, rfl⟩
  | .failed _ _ => ⟨nofun, rfl⟩
  | .stalled h _ => by
    refine ⟨?_, (h.bounds hrange).1, rfl⟩
    rw [List.forall_mem_singleton]
    exact h.tiles hrange
  | .more _ h _ hrest => by
    obtain ⟨hstart, -, hafter⟩ := h.bounds hrange
    obtain ⟨hparts, habut⟩ := hrest.tiles hafter
    refine ⟨?_, hstart, habut⟩
    rw [List.forall_mem_cons]
    exact ⟨h.tiles hrange, hparts⟩

end

end

namespace Matcher

end Matcher

end CursorGrammar
