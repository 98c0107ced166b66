import Mathlib
import Quire.Proofs.Text.Literal

/-!
# What markup sees of a script

A script stands in an element of markup, which ends at the first `</script`. Behind a `<!--`,
though, a `<script` opens one more element, and the end is then taken for the end of that one.
Letters count in either case. The signs that stand in an escaped text are those of the text itself,
in their order.
-/

namespace Quire.Text

/-- A word that markup looks for in a script, in small letters. -/
inductive ScriptSign where
  | comment | opening
  deriving DecidableEq, Repr

def ScriptSign.word : ScriptSign → List Char
  | comment => "<!--".toList
  | opening => "<script".toList

/-- A text is a word, capitals aside. -/
def Spells (cs word : List Char) : Prop := cs.map Char.toLower = word

def EndsScript (cs : List Char) : Prop :=
  ∃ front found back, cs = front ++ (found ++ back) ∧ Spells found "</script".toList

/-- What stands in a text makes markup miss the end of the script behind it. -/
def HidesEnd (cs : List Char) : Prop :=
  ∃ front comment between opening back,
    cs = front ++ (comment ++ (between ++ (opening ++ back))) ∧
      Spells comment "<!--".toList ∧ Spells opening "<script".toList

def signAt? (cs : List Char) : Option ScriptSign :=
  if ScriptSign.comment.word.isPrefixOf (cs.map Char.toLower) then some .comment
  else if ScriptSign.opening.word.isPrefixOf (cs.map Char.toLower) then some .opening
  else none

/-- The signs in a text, in the order in which they start. -/
def signs : List Char → List ScriptSign
  | [] => []
  | c :: rest => (signAt? (c :: rest)).toList ++ signs rest

section Folding

/-- Only a letter can be spelt in another way. -/
theorem eq_of_toLower {c x : Char} (sign : x.isAlpha = false) (h : c.toLower = x) : c = x := by
  by_cases capital : c.isUpper = true
  · have letter : c.isAlpha = true := by rw [Char.isAlpha, capital, Bool.true_or]
    rw [← h, Char.isAlpha_toLower_eq_isAlpha, letter] at sign
    contradiction
  · rwa [Char.toLower_eq_of_not_isUpper capital] at h

theorem scriptChar_of_isUpper {c : Char} (capital : c.isUpper = true) : scriptChar c = [c] := by
  unfold scriptChar
  split
  case h_10 =>
    have code : c.toNat = c.val.toNat ∧ 'A'.val.toNat = 65 := ⟨rfl, rfl⟩
    simp only [Char.isUpper, decide_eq_true_eq, UInt32.le_iff_toNat_le, ge_iff_le] at capital
    apply if_neg
    omega
  all_goals contradiction

/-- A character that is escaped is not spelt like one that stands for itself. -/
theorem toLower_ne_of_escaped {c x : Char} (escaped : scriptChar c ≠ [c])
    (plain : scriptChar x = [x]) : c.toLower ≠ x := by
  intro same
  by_cases capital : c.isUpper = true
  · exact escaped (scriptChar_of_isUpper capital)
  · rw [← same, Char.toLower_eq_of_not_isUpper capital] at plain
    exact escaped plain

theorem head_scriptChar {c : Char} (escaped : scriptChar c ≠ [c]) :
    ∃ rest, scriptChar c = '\\' :: rest ∧ '<' ∉ rest := by
  rcases scriptChar_cases c with ⟨e, escape, -, -, -, -, -, back⟩ | ⟨control, -, escape⟩ |
    ⟨escape, -⟩
  · refine ⟨[e], escape, fun mem => ?_⟩
    obtain rfl := List.mem_singleton.mp mem
    obtain rfl : '<' = c := by simpa [escapedParts?, isDigit] using back
    contradiction
  · have digits : ∀ n < 16, hexDigit n ≠ '<' := by decide
    have high := digits (c.toNat / 16) (by omega)
    have low := digits (c.toNat % 16) (by omega)
    refine ⟨_, escape, ?_⟩
    simp [high.symm, low.symm]
  · exact absurd escape escaped

/-- A word of characters that stand for themselves is the start of an escaped text just when it is
that of the text. -/
theorem prefix_escaped_iff {word : List Char} (plain : ∀ x ∈ word, scriptChar x = [x])
    (cs : List Char) :
    word <+: (cs.flatMap scriptChar).map Char.toLower ↔ word <+: cs.map Char.toLower := by
  induction cs generalizing word with
  | nil => rfl
  | cons c cs ih =>
    cases word with
    | nil => simp only [List.nil_prefix]
    | cons x word =>
      rw [List.forall_mem_cons] at plain
      by_cases itself : scriptChar c = [c]
      · rw [List.flatMap_cons, itself, List.singleton_append, List.map_cons, List.map_cons,
          List.cons_prefix_cons, List.cons_prefix_cons, ih plain.2]
      · obtain ⟨rest, start, -⟩ := head_scriptChar itself
        rw [List.flatMap_cons, start, List.cons_append, List.map_cons, List.map_cons,
          List.cons_prefix_cons, List.cons_prefix_cons]
        constructor
        · rintro ⟨rfl, -⟩
          exact absurd plain.1 (by decide)
        · rintro ⟨same, -⟩
          exact absurd same.symm (toLower_ne_of_escaped itself plain.1)

/-- What stands behind a character that a word does not have is not part of the word. -/
theorem prefix_before_iff {α : Type} {word a b : List α} {x : α} (absent : x ∉ word) :
    word <+: a ++ x :: b ↔ word <+: a := by
  constructor
  · intro h
    rcases List.prefix_or_prefix_of_prefix h (List.prefix_append _ _) with inside | ⟨more, rfl⟩
    · exact inside
    · rw [List.prefix_append_right_inj] at h
      cases more with
      | nil => simp only [List.append_nil, List.prefix_rfl]
      | cons y more =>
        obtain ⟨rfl, -⟩ := List.cons_prefix_cons.mp h
        exact absurd (List.mem_append_right a List.mem_cons_self) absent
  · intro h
    exact h.trans (List.prefix_append _ _)

end Folding

section Signs

theorem toList_word_comment : ScriptSign.comment.word = ['<', '!', '-', '-'] := String.toList_ofList

theorem toList_word_opening : ScriptSign.opening.word = ['<', 's', 'c', 'r', 'i', 'p', 't'] :=
  String.toList_ofList

theorem word_eq_cons (sign : ScriptSign) : ∃ name, sign.word = '<' :: name ∧ '<' ∉ name := by
  cases sign with
  | comment => exact ⟨_, toList_word_comment, by decide⟩
  | opening => exact ⟨_, toList_word_opening, by decide⟩

/-- No text starts with two signs. -/
theorem signAt?_eq_some_iff {cs : List Char} {sign : ScriptSign} :
    signAt? cs = some sign ↔ sign.word <+: cs.map Char.toLower := by
  have single : ScriptSign.comment.word <+: cs.map Char.toLower →
      ¬ ScriptSign.opening.word <+: cs.map Char.toLower := by
    intro comment opening
    have either := List.prefix_or_prefix_of_prefix comment opening
    rw [toList_word_comment, toList_word_opening] at either
    revert either
    decide
  rw [signAt?]
  by_cases comment : ScriptSign.comment.word <+: cs.map Char.toLower
  · rw [if_pos (List.isPrefixOf_iff_prefix.mpr comment)]
    cases sign with
    | comment => simp only [comment]
    | opening => simp only [single comment, Option.some.injEq, reduceCtorEq]
  · rw [if_neg (mt List.isPrefixOf_iff_prefix.mp comment)]
    by_cases opening : ScriptSign.opening.word <+: cs.map Char.toLower
    · rw [if_pos (List.isPrefixOf_iff_prefix.mpr opening)]
      cases sign with
      | comment => simp only [comment, Option.some.injEq, reduceCtorEq]
      | opening => simp only [opening]
    · rw [if_neg (mt List.isPrefixOf_iff_prefix.mp opening)]
      cases sign with
      | comment => simp only [comment, reduceCtorEq]
      | opening => simp only [opening, reduceCtorEq]

theorem prefix_folded_iff {word cs : List Char} :
    word <+: cs.map Char.toLower ↔ ∃ found back, cs = found ++ back ∧ Spells found word := by
  constructor
  · intro h
    obtain ⟨found, ⟨back, whole⟩, same⟩ := List.prefix_map_iff.mp h
    exact ⟨found, back, whole.symm, same.symm⟩
  · rintro ⟨found, back, rfl, spelt⟩
    rw [List.map_append, spelt]
    exact List.prefix_append _ _

theorem signAt?_congr {a b : List Char}
    (h : ∀ sign : ScriptSign, sign.word <+: a.map Char.toLower ↔ sign.word <+: b.map Char.toLower) :
    signAt? a = signAt? b := by
  apply Option.ext
  intro sign
  rw [signAt?_eq_some_iff, signAt?_eq_some_iff, h]

theorem signAt?_of_ne {c : Char} (h : c ≠ '<') (rest : List Char) : signAt? (c :: rest) = none := by
  apply Option.eq_none_iff_forall_ne_some.mpr
  intro sign found
  obtain ⟨name, start, -⟩ := word_eq_cons sign
  rw [signAt?_eq_some_iff, start, List.map_cons, List.cons_prefix_cons] at found
  exact h (eq_of_toLower (by decide) found.1.symm)

theorem signs_append_of_notMem {a : List Char} (h : '<' ∉ a) (b : List Char) :
    signs (a ++ b) = signs b := by
  induction a with
  | nil => rfl
  | cons c a ih =>
    rw [List.mem_cons, not_or] at h
    rw [List.cons_append, signs, signAt?_of_ne (Ne.symm h.1), ih h.2]
    rfl

/-- No sign goes on behind a quote. -/
theorem signs_append_quote (cs rest : List Char) :
    signs (cs ++ '"' :: rest) = signs cs ++ signs rest := by
  induction cs with
  | nil => exact signs_append_of_notMem (a := ['"']) (by decide) rest
  | cons c cs ih =>
    have here : signAt? (c :: (cs ++ '"' :: rest)) = signAt? (c :: cs) := by
      apply signAt?_congr
      intro sign
      have absent : '"' ∉ sign.word := by
        cases sign with
        | comment => rw [toList_word_comment]; decide
        | opening => rw [toList_word_opening]; decide
      rw [← List.cons_append, List.map_append]
      exact prefix_before_iff absent
    rw [List.cons_append, signs, here, ih, signs, List.append_assoc]

/-- An escape neither makes a sign nor takes one away. -/
theorem signs_escaped (cs : List Char) : signs (cs.flatMap scriptChar) = signs cs := by
  induction cs with
  | nil => rfl
  | cons c cs ih =>
    by_cases itself : scriptChar c = [c]
    · have here : signAt? (c :: cs.flatMap scriptChar) = signAt? (c :: cs) := by
        apply signAt?_congr
        intro sign
        have plain : (sign.word.all fun x => scriptChar x == [x]) = true := by
          cases sign with
          | comment => rw [toList_word_comment]; rfl
          | opening => rw [toList_word_opening]; rfl
        have same := prefix_escaped_iff
          (fun x mem => beq_iff_eq.mp (List.all_eq_true.mp plain x mem)) (c :: cs)
        rwa [List.flatMap_cons, itself, List.singleton_append] at same
      rw [List.flatMap_cons, itself, List.singleton_append, signs, here, ih, signs]
    · obtain ⟨rest, start, absent⟩ := head_scriptChar itself
      have other : c ≠ '<' := by
        rintro rfl
        exact itself rfl
      have none : '<' ∉ scriptChar c := by
        rw [start, List.mem_cons, not_or]
        exact ⟨by decide, absent⟩
      rw [List.flatMap_cons, signs_append_of_notMem none, ih, signs, signAt?_of_ne other]
      rfl

theorem mem_signs_iff {cs : List Char} {sign : ScriptSign} : sign ∈ signs cs ↔
    ∃ front found back, cs = front ++ (found ++ back) ∧ Spells found sign.word := by
  induction cs with
  | nil =>
    obtain ⟨name, start, -⟩ := word_eq_cons sign
    constructor
    · intro mem
      contradiction
    · rintro ⟨front, found, back, empty, spelt⟩
      have none := (List.append_eq_nil_iff.mp (List.append_eq_nil_iff.mp empty.symm).2).1
      rw [none, start] at spelt
      contradiction
  | cons c cs ih =>
    rw [signs, List.mem_append, Option.mem_toList, signAt?_eq_some_iff, prefix_folded_iff, ih]
    constructor
    · rintro (⟨found, back, whole, spelt⟩ | ⟨front, found, back, whole, spelt⟩)
      · exact ⟨[], found, back, whole, spelt⟩
      · exact ⟨c :: front, found, back, by rw [whole, List.cons_append], spelt⟩
    · rintro ⟨front, found, back, whole, spelt⟩
      cases front with
      | nil => exact .inl ⟨found, back, whole, spelt⟩
      | cons d front => exact .inr ⟨front, found, back, (List.cons.inj whole).2, spelt⟩

/-- Behind the first character of a sign no other one starts before it ends. -/
theorem signs_behind {sign : ScriptSign} {c : Char} {cs found back : List Char}
    (whole : c :: cs = found ++ back) (spelt : Spells found sign.word) :
    signs cs = signs back := by
  obtain ⟨name, start, once⟩ := word_eq_cons sign
  cases found with
  | nil =>
    rw [start] at spelt
    contradiction
  | cons d more =>
    obtain ⟨-, rfl⟩ := List.cons.inj whole
    rw [Spells, start, List.map_cons, List.cons.injEq] at spelt
    apply signs_append_of_notMem
    intro mem
    have inName := List.mem_map_of_mem (f := Char.toLower) mem
    rw [spelt.2] at inName
    exact once inName

theorem hidesEnd_cons_iff {c : Char} {cs : List Char} : HidesEnd (c :: cs) ↔
    (signAt? (c :: cs) = some .comment ∧ .opening ∈ signs cs) ∨ HidesEnd cs := by
  constructor
  · rintro ⟨front, comment, between, opening, back, whole, first, second⟩
    cases front with
    | nil =>
      rw [List.nil_append] at whole
      refine .inl ⟨signAt?_eq_some_iff.mpr (prefix_folded_iff.mpr ⟨comment, _, whole, first⟩), ?_⟩
      rw [@signs_behind .comment _ _ _ _ whole first, mem_signs_iff]
      exact ⟨between, opening, back, rfl, second⟩
    | cons d front =>
      exact .inr ⟨front, comment, between, opening, back, (List.cons.inj whole).2, first, second⟩
  · rintro (⟨here, later⟩ | ⟨front, comment, between, opening, back, whole, first, second⟩)
    · obtain ⟨comment, rest, whole, first⟩ := prefix_folded_iff.mp (signAt?_eq_some_iff.mp here)
      rw [signs_behind whole first] at later
      obtain ⟨between, opening, back, rfl, second⟩ := mem_signs_iff.mp later
      exact ⟨[], comment, between, opening, back, whole, first, second⟩
    · exact ⟨c :: front, comment, between, opening, back, by rw [whole, List.cons_append], first,
        second⟩

theorem hidesEnd_iff {cs : List Char} :
    HidesEnd cs ↔ [ScriptSign.comment, ScriptSign.opening].Sublist (signs cs) := by
  induction cs with
  | nil =>
    constructor
    · rintro ⟨front, comment, between, opening, back, whole, first, -⟩
      have rest := (List.append_eq_nil_iff.mp whole.symm).2
      rw [(List.append_eq_nil_iff.mp rest).1, Spells, List.map_nil, String.toList_ofList] at first
      contradiction
    · intro none
      contradiction
  | cons c cs ih =>
    rw [hidesEnd_cons_iff, ih, signs]
    cases signAt? (c :: cs) with
    | none => simp
    | some sign =>
      rw [Option.toList_some, List.singleton_append, List.cons_sublist_cons',
        List.singleton_sublist]
      cases sign with
      | comment => simp [or_comm]
      | opening => simp

end Signs

/-- Where every slash is escaped, no script ends. -/
theorem SlashesEscaped.not_endsScript {cs : List Char} (h : SlashesEscaped cs) :
    ¬ EndsScript cs := by
  rintro ⟨front, found, back, rfl, spelt⟩
  rw [Spells, String.toList_ofList] at spelt
  obtain ⟨a, more, rfl, first, spelt⟩ := List.map_eq_cons_iff.mp spelt
  obtain ⟨b, rest, rfl, second, -⟩ := List.map_eq_cons_iff.mp spelt
  obtain rfl := eq_of_toLower (by decide) first
  obtain rfl := eq_of_toLower (by decide) second
  refine h.absent (List.infix_refl ['<', '/']) (by decide) ⟨front, rest ++ back, ?_⟩
  simp only [List.append_assoc, List.cons_append, List.nil_append]

end Quire.Text
