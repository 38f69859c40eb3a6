import CursorGrammar.Matcher.Printer
import CursorGrammar.Proofs.Quoting

set_option autoImplicit false

/-! # Printed forms

What is printed tells what it is the form of. The texts in it are quoted and may say anything,
even something that looks like a printed form; but as every form can be read back without knowing
what follows, the forms of the parts are found one after the other, from the outside in. The first
character tells what kind of form it is. -/

namespace CursorGrammar

variable {α β γ : Type}

/-! ## First characters -/

/-- What `print` writes begins with a character that `sort` takes to `leader`. -/
def Led (print : α → Text) (sort : Char → Char) (leader : α → Char) : Prop :=
  ∀ a r, (print a ++ r).head?.map sort = some (leader a)

namespace Led

variable {print : α → Text} {sort : Char → Char} {leader : α → Char}

theorem leader_eq (h : Led print sort leader) {a b : α} {r s : Text}
    (heq : print a ++ r = print b ++ s) : leader a = leader b := by
  have hhead := congrArg (fun t : Text => t.head?.map sort) heq
  simp only [h a r, h b s, Option.some.injEq] at hhead
  exact hhead

theorem append_ne (h : Led print sort leader) {c : Char} (hc : ∀ a, leader a ≠ sort c) (a : α)
    (r s : Text) : print a ++ r ≠ c :: s := by
  intro heq
  have hhead := congrArg (fun t : Text => t.head?.map sort) heq
  simp only [h a r, List.head?_cons, Option.map_some, Option.some.injEq] at hhead
  exact hc a hhead

end Led

/-! ## Records -/

namespace Legible

theorem record_one {print : α → Text} {a : α} (ha : Legible print a) (name field : Text) :
    Legible (fun a => printRecord name [(field, print a)]) a := by
  intro b r s _ _ h
  simp only [printRecord, List.map_cons, List.map_nil, commaSeparated, List.append_assoc,
    List.cons_append, List.append_cancel_left_eq, List.cons.injEq, true_and] at h
  exact (ha.eq_and_eq_of_cons (by decide) h).1

theorem record_three {print₁ : α → Text} {print₂ : β → Text} {print₃ : γ → Text} {x : α × β × γ}
    (h₁ : Legible print₁ x.1) (h₂ : Legible print₂ x.2.1) (h₃ : Legible print₃ x.2.2)
    (name field₁ field₂ field₃ : Text) :
    Legible (fun x : α × β × γ => printRecord name
      [(field₁, print₁ x.1), (field₂, print₂ x.2.1), (field₃, print₃ x.2.2)]) x := by
  rintro ⟨a, b, c⟩ r s _ _ h
  simp only [printRecord, List.map_cons, List.map_nil, commaSeparated, List.append_assoc,
    List.cons_append, List.append_cancel_left_eq, List.cons.injEq, true_and] at h
  obtain ⟨hone, h⟩ := h₁.eq_and_eq_of_cons (by decide) h
  simp only [List.append_cancel_left_eq, List.cons.injEq, true_and] at h
  obtain ⟨htwo, h⟩ := h₂.eq_and_eq_of_cons (by decide) h
  simp only [List.append_cancel_left_eq, List.cons.injEq, true_and] at h
  obtain ⟨hthree, -⟩ := h₃.eq_and_eq_of_cons (by decide) h
  exact Prod.ext hone (Prod.ext htwo hthree)

end Legible

/-! ## Lists -/

/-- A way to write lists can be read back if no item can be taken for the end of the list, and
    what is written behind the first item can be read back. -/
theorem legible_of_first {print : α → Text} (write rest : List Text → Text) {first close : Char}
    {xs : List α} (hxs : ∀ x ∈ xs, Legible print x) (hnil : write [] = [first, close])
    (hcons : ∀ item items, write (item :: items) = first :: item ++ rest items)
    (hopens : ∀ x r s, print x ++ r ≠ close :: s)
    (hdigit : ∀ items r, Text.NoDigitFirst (rest items ++ r))
    (hrest : ∀ xs : List α, (∀ x ∈ xs, Legible print x) →
      Legible (fun xs => rest (xs.map print)) xs) :
    Legible (fun xs => write (xs.map print)) xs := by
  intro ys r s hr hs h
  cases xs with
  | nil =>
    cases ys with
    | nil => rfl
    | cons y ys =>
      simp only [List.map_nil, List.map_cons, hnil, hcons, List.append_assoc, List.cons_append,
        List.cons.injEq, true_and] at h
      exact absurd h.symm (hopens y _ _)
  | cons x xs =>
    cases ys with
    | nil =>
      simp only [List.map_nil, List.map_cons, hnil, hcons, List.append_assoc, List.cons_append,
        List.cons.injEq, true_and] at h
      exact absurd h (hopens x _ _)
    | cons y ys =>
      simp only [List.map_cons, hcons, List.append_assoc, List.cons_append, List.cons.injEq,
        true_and] at h
      obtain ⟨rfl, hafter⟩ := (hxs x List.mem_cons_self).eq_and_eq (hdigit _ _) (hdigit _ _) h
      rw [hrest xs (fun x hx => hxs x (List.mem_cons_of_mem _ hx)) hr hs hafter]

/-- The items with a comma and a space before each, and the character that closes the list. -/
def commaLed (close : Char) : List Text → Text
  | [] => [close]
  | item :: items => ',' :: ' ' :: item ++ commaLed close items

theorem commaSeparated_append (close : Char) (item : Text) (items : List Text) :
    commaSeparated (item :: items) ++ [close] = item ++ commaLed close items := by
  induction items generalizing item with
  | nil => rfl
  | cons next items ih =>
    calc commaSeparated (item :: next :: items) ++ [close]
        = item ++ ',' :: ' ' :: (commaSeparated (next :: items) ++ [close]) := by
          simp only [commaSeparated, List.append_assoc, List.cons_append]
      _ = item ++ commaLed close (next :: items) := by rw [ih next]; rfl

theorem noDigitFirst_commaLed {close : Char} (hclose : close.isDigit = false) (items : List Text)
    (r : Text) : Text.NoDigitFirst (commaLed close items ++ r) := by
  cases items with
  | nil => exact Text.noDigitFirst_cons hclose
  | cons item items => exact Text.noDigitFirst_cons (by decide)

/-- What comes after the first of the members: a comma alone if there are no others. -/
def membersLed : List Text → Text
  | [] => [',', ')']
  | items => commaLed ')' items

theorem printMembers_cons (item : Text) (items : List Text) :
    printMembers (item :: items) = '(' :: item ++ membersLed items := by
  cases items with
  | nil => rfl
  | cons next items => exact congrArg ('(' :: ·) (commaSeparated_append ')' item (next :: items))

theorem noDigitFirst_membersLed (items : List Text) (r : Text) :
    Text.NoDigitFirst (membersLed items ++ r) := by
  cases items with
  | nil => exact Text.noDigitFirst_cons (by decide)
  | cons item items => exact noDigitFirst_commaLed (by decide) _ r

section Items

variable {print : α → Text} {xs : List α} (hxs : ∀ x ∈ xs, Legible print x)

include hxs

theorem legible_commaLed {close : Char} (hclose : close.isDigit = false) (hcomma : close ≠ ',') :
    Legible (fun xs : List α => commaLed close (xs.map print)) xs := by
  induction xs with
  | nil =>
    intro ys r s _ _ h
    cases ys with
    | nil => rfl
    | cons y ys => exact absurd (List.cons.inj h).1 hcomma
  | cons x xs ih =>
    intro ys r s hr hs h
    cases ys with
    | nil => exact absurd (List.cons.inj h).1.symm hcomma
    | cons y ys =>
      simp only [List.map_cons, commaLed, List.cons_append, List.append_assoc, List.cons.injEq,
        true_and] at h
      obtain ⟨rfl, hafter⟩ := (hxs x List.mem_cons_self).eq_and_eq
        (noDigitFirst_commaLed hclose _ _) (noDigitFirst_commaLed hclose _ _) h
      rw [ih (fun x hx => hxs x (List.mem_cons_of_mem _ hx)) hr hs hafter]

theorem legible_membersLed : Legible (fun xs : List α => membersLed (xs.map print)) xs := by
  intro ys r s hr hs h
  cases xs with
  | nil =>
    cases ys with
    | nil => rfl
    | cons y ys => exact absurd (List.cons.inj (List.cons.inj h).2).1 (by decide)
  | cons x xs =>
    cases ys with
    | nil => exact absurd (List.cons.inj (List.cons.inj h).2).1 (by decide)
    | cons y ys => exact legible_commaLed hxs (by decide) (by decide) hr hs h

theorem legible_bracketed (hopens : ∀ x r s, print x ++ r ≠ ']' :: s) :
    Legible (fun xs : List α => '[' :: commaSeparated (xs.map print) ++ [']']) xs :=
  legible_of_first (fun items => '[' :: commaSeparated items ++ [']']) (commaLed ']') hxs rfl
    (fun item items => congrArg ('[' :: ·) (commaSeparated_append ']' item items)) hopens
    (noDigitFirst_commaLed (by decide)) fun _ h => legible_commaLed h (by decide) (by decide)

theorem legible_printMembers (hopens : ∀ x r s, print x ++ r ≠ ')' :: s) :
    Legible (fun xs : List α => printMembers (xs.map print)) xs :=
  legible_of_first printMembers membersLed hxs rfl printMembers_cons hopens
    noDigitFirst_membersLed fun _ => legible_membersLed

end Items

/-! ## Values -/

/-- One of the characters that a printed value of the same kind may begin with: the single mark
    for a mark, a zero for a sign or a digit, and a `T` for an `F`. -/
def leaderOf (c : Char) : Char :=
  if c = doubleMark then singleMark
  else if c = '-' ∨ c.isDigit = true then '0'
  else if c = 'F' then 'T'
  else c

namespace Value

/-- What a printed value begins with, as far as its kind tells. -/
def leader : Value → Char
  | text _ => singleMark
  | null => 'N'
  | integer _ => '0'
  | truth _ => 'T'
  | list _ => '['
  | found _ _ => 'M'

theorem led_print : Led print leaderOf leader := by
  intro v r
  cases v with
  | text t =>
    have hmark : leaderOf t.mark = singleMark := by
      rcases t.mark_eq with h | h <;> rw [h] <;> decide
    exact congrArg some hmark
  | null => rfl
  | integer n =>
    obtain ⟨first, rest, hdecimal, hfirst⟩ := exists_decimal_eq n
    have hmark : first ≠ doubleMark := by
      rintro rfl
      revert hfirst
      decide
    have hleader : leaderOf first = '0' := by rw [leaderOf, if_neg hmark, if_pos hfirst]
    rw [print, hdecimal]
    exact congrArg some hleader
  | truth b => cases b <;> rfl
  | list items => rfl
  | found value span => rfl

theorem print_append_ne_close : ∀ (v : Value) (r s : Text), v.print ++ r ≠ ']' :: s := by
  refine led_print.append_ne fun v => ?_
  rw [show leaderOf ']' = ']' by decide]
  cases v <;> simp [leader, singleMark]

theorem printAll_eq_map (items : List Value) : printAll items = items.map print := by
  induction items with
  | nil => rfl
  | cons item items ih => rw [printAll, ih, List.map_cons]

mutual

/-- The first character tells the kind of a value, and then its parts are read in turn. -/
theorem legible_print : (v : Value) → Legible print v
  | text t => by
    intro w r s hr hs h
    have hleader := led_print.leader_eq h
    cases w with
    | text u => rw [legible_quoted t hr hs h]
    | _ => simp [leader, singleMark] at hleader
  | null => by
    intro w r s hr hs h
    have hleader := led_print.leader_eq h
    cases w with
    | null => rfl
    | _ => simp [leader, singleMark] at hleader
  | integer n => by
    intro w r s hr hs h
    have hleader := led_print.leader_eq h
    cases w with
    | integer m => rw [legible_decimal n hr hs h]
    | _ => simp [leader, singleMark] at hleader
  | truth b => by
    intro w r s hr hs h
    have hleader := led_print.leader_eq h
    cases w with
    | truth b' =>
      cases b <;> cases b'
      · rfl
      · exact absurd (List.cons.inj h).1 (by decide)
      · exact absurd (List.cons.inj h).1 (by decide)
      · rfl
    | _ => simp [leader, singleMark] at hleader
  | list items => by
    intro w r s hr hs h
    have hleader := led_print.leader_eq h
    cases w with
    | list others =>
      simp only [print, printAll_eq_map] at h
      rw [legible_bracketed (forall_legible_print items) print_append_ne_close hr hs h]
    | _ => simp [leader, singleMark] at hleader
  | found value span => by
    intro w r s hr hs h
    have hleader := led_print.leader_eq h
    cases w with
    | found value' span' =>
      have hparts := Legible.record_three (x := (value, span.start, span.stop))
        (legible_print value) (legible_decimal _) (legible_decimal _) _ _ _ _
        (b := (value', span'.start, span'.stop)) hr hs h
      simp only [Prod.mk.injEq] at hparts
      rw [hparts.1, Span.ext_bounds hparts.2.1 hparts.2.2]
    | _ => simp [leader, singleMark] at hleader

theorem forall_legible_print : (items : List Value) → ∀ v ∈ items, Legible print v
  | [] => nofun
  | item :: items => List.forall_mem_cons.2 ⟨legible_print item, forall_legible_print items⟩

end

end Value

theorem Match.toValue_injective : Function.Injective toValue := by
  intro a b h
  cases a; cases b; cases h; rfl

theorem Match.legible_print (m : Match) : Legible Match.print m :=
  (Value.legible_print m.toValue).comp toValue_injective

/-! ## Matchers -/

theorem legible_printBound (bound : Option Int) : Legible printBound bound := by
  have hvalue : printBound = fun bound : Option Int => (bound.elim .null .integer : Value).print := by
    funext bound
    cases bound <;> rfl
  rw [hvalue]
  refine (Value.legible_print _).comp fun a b h => ?_
  cases a <;> cases b <;> cases h <;> rfl

namespace Matcher

/-- What a printed matcher begins with. -/
def leader : Matcher Empty → Char
  | char _ => 'C'
  | pattern _ => 'P'
  | seq _ => 'S'
  | alt _ => 'A'
  | quant _ _ _ => 'Q'
  | opt _ => 'O'
  | call target => target.elim

theorem led_print : Led print id leader := by
  intro m r
  cases m with
  | call target => exact target.elim
  | _ => rfl

theorem print_append_ne_close : ∀ (m : Matcher Empty) (r s : Text), m.print ++ r ≠ ')' :: s := by
  refine led_print.append_ne fun m => ?_
  cases m with
  | call target => exact target.elim
  | _ => simp [leader]

theorem printAll_eq_map (ms : List (Matcher Empty)) : printAll ms = ms.map print := by
  induction ms with
  | nil => rfl
  | cons m ms ih => rw [printAll, ih, List.map_cons]

mutual

/-- The name in front tells the kind of a matcher, and then its fields are read in turn. -/
theorem legible_print : (m : Matcher Empty) → Legible print m
  | char value => by
    intro n r s hr hs h
    have hleader := led_print.leader_eq h
    cases n with
    | char value' => rw [(legible_quoted value).record_one _ _ hr hs h]
    | call target => exact target.elim
    | _ => simp [leader] at hleader
  | pattern p => by
    intro n r s hr hs h
    have hleader := led_print.leader_eq h
    cases n with
    | pattern q =>
      have hfragment := (legible_quoted p.fragment).record_one _ _ hr hs h
      rw [Pattern.eq_of_fragment_eq hfragment]
    | call target => exact target.elim
    | _ => simp [leader] at hleader
  | seq ms => by
    intro n r s hr hs h
    have hleader := led_print.leader_eq h
    cases n with
    | seq ns =>
      simp only [print, printAll_eq_map] at h
      have hmembers := legible_printMembers (forall_legible_print ms) print_append_ne_close
      rw [hmembers.record_one _ _ hr hs h]
    | call target => exact target.elim
    | _ => simp [leader] at hleader
  | alt ms => by
    intro n r s hr hs h
    have hleader := led_print.leader_eq h
    cases n with
    | alt ns =>
      simp only [print, printAll_eq_map] at h
      have hmembers := legible_printMembers (forall_legible_print ms) print_append_ne_close
      rw [hmembers.record_one _ _ hr hs h]
    | call target => exact target.elim
    | _ => simp [leader] at hleader
  | quant m least most => by
    intro n r s hr hs h
    have hleader := led_print.leader_eq h
    cases n with
    | quant n least' most' =>
      have hparts := Legible.record_three (x := (m, least, most)) (legible_print m)
        (legible_decimal least) (legible_printBound most) _ _ _ _ (b := (n, least', most')) hr hs h
      simp only [Prod.mk.injEq] at hparts
      rw [hparts.1, hparts.2.1, hparts.2.2]
    | call target => exact target.elim
    | _ => simp [leader] at hleader
  | opt m => by
    intro n r s hr hs h
    have hleader := led_print.leader_eq h
    cases n with
    | opt n => rw [(legible_print m).record_one _ _ hr hs h]
    | call target => exact target.elim
    | _ => simp [leader] at hleader
  | call target => target.elim

theorem forall_legible_print : (ms : List (Matcher Empty)) → ∀ m ∈ ms, Legible print m
  | [] => nofun
  | m :: ms => List.forall_mem_cons.2 ⟨legible_print m, forall_legible_print ms⟩

end

end Matcher

/-! ## Agreement -/

namespace Value

/-- The value is made of texts, null, lists and matches; numbers and truth values are no part of
    it. -/
inductive NumberFree : Value → Prop
  | text (content : Text) : NumberFree (.text content)
  | null : NumberFree .null
  | list {items : List Value} (h : ∀ item ∈ items, NumberFree item) : NumberFree (.list items)
  | found {value : Value} {span : Span} (h : NumberFree value) : NumberFree (.found value span)

mutual

theorem agrees_self : (v : Value) → v.agrees v = true
  | text content => by simp [agrees]
  | null => rfl
  | integer number => by simp [agrees, number?]
  | truth value => by simp [agrees, number?]
  | list items => by rw [agrees, agreeAll_self items]
  | found value span => by simp [agrees, agrees_self value]

theorem agreeAll_self : (items : List Value) → agreeAll items items = true
  | [] => rfl
  | item :: items => by rw [agreeAll, agrees_self item, agreeAll_self items]; rfl

end

theorem eq_of_agreeAll {items others : List Value}
    (hitems : ∀ item ∈ items, ∀ w, item.agrees w = true → item = w)
    (h : agreeAll items others = true) : items = others := by
  induction items generalizing others with
  | nil =>
    cases others with
    | nil => rfl
    | cons other others => simp [agreeAll] at h
  | cons item items ih =>
    cases others with
    | nil => simp [agreeAll] at h
    | cons other others =>
      simp only [agreeAll, Bool.and_eq_true] at h
      rw [hitems item List.mem_cons_self other h.1,
        ih (fun item hitem => hitems item (List.mem_cons_of_mem _ hitem)) h.2]

/-- Only numbers and truth values agree with something else than themselves. -/
theorem NumberFree.eq_of_agrees {v : Value} (hv : v.NumberFree) :
    ∀ w, v.agrees w = true → v = w := by
  induction hv with
  | text content =>
    intro w h
    cases w <;> simp_all [agrees, number?]
  | null =>
    intro w h
    cases w <;> simp_all [agrees, number?]
  | list _ ih =>
    intro w h
    cases w with
    | list others => rw [eq_of_agreeAll ih (by simpa [agrees] using h)]
    | _ => simp [agrees, number?] at h
  | found _ ih =>
    intro w h
    cases w with
    | found value' span' =>
      simp only [agrees, Bool.and_eq_true, beq_iff_eq] at h
      rw [ih value' h.1, h.2]
    | _ => simp [agrees, number?] at h

example : (Value.truth true).agrees (.integer 1) = true := by decide

theorem NumberFree.agrees_iff {v w : Value} (hv : v.NumberFree) : v.agrees w = true ↔ v = w :=
  ⟨hv.eq_of_agrees w, fun h => h ▸ agrees_self v⟩

end Value

theorem Match.agrees_iff {a b : Match} (ha : a.value.NumberFree) : a.agrees b = true ↔ a = b := by
  have hfound : a.toValue.NumberFree := .found ha
  rw [Match.agrees, hfound.agrees_iff]
  exact toValue_injective.eq_iff

/-! ## Identity -/

end CursorGrammar
