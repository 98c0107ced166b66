import Quire.Proofs.Numbering.Roman

/-!
# Reading counters back

In every style the text of a counter denotes its number, so different counters have different
texts. All texts are made of ASCII letters and digits.
-/

namespace Quire

/-- The value of letters as digits from one to twenty-six. -/
def alphaValue (cs : List Char) : Nat := cs.foldl (fun value c => 26 * value + (c.toNat - 96)) 0

namespace CounterStyle

theorem alphaText_positive {n : Nat} (positive : n ≠ 0) :
    alphaText n = alphaText ((n - 1) / 26) ++ [Char.ofNat (97 + (n - 1) % 26)] := by
  rw [alphaText, if_neg positive]

theorem toNat_letter {i : Nat} (small : i < 26) : (Char.ofNat (97 + i)).toNat = 97 + i := by
  have valid : (97 + i).isValidChar := by
    left
    omega
  rw [Char.ofNat, dif_pos valid]
  rfl

theorem alphaValue_alphaText (n : Nat) : alphaValue (alphaText n) = n := by
  induction n using Nat.strongRecOn with
  | _ n ih =>
    by_cases zero : n = 0
    · rw [zero, alphaText]
      rfl
    · have shorter : alphaValue (alphaText ((n - 1) / 26)) = (n - 1) / 26 := ih _ (by omega)
      have letter := toNat_letter (Nat.mod_lt (n - 1) (by decide : 0 < 26))
      rw [alphaText_positive zero, alphaValue, List.foldl_append, ← alphaValue, shorter,
        List.foldl_cons, List.foldl_nil, letter]
      omega

theorem mem_alphaText {n : Nat} {c : Char} (h : c ∈ alphaText n) :
    ∃ i < 26, c = Char.ofNat (97 + i) := by
  induction n using Nat.strongRecOn with
  | _ n ih =>
    by_cases zero : n = 0
    · rw [zero, alphaText] at h
      contradiction
    · rw [alphaText_positive zero, List.mem_append, List.mem_singleton] at h
      rcases h with before | last
      · exact ih _ (by omega) before
      · exact ⟨_, Nat.mod_lt _ (by decide), last⟩

/-- An ASCII letter or digit that is one in either case and comes back when the case is changed from
`f` to `g`. -/
def Recased (f g : Char → Char) (c : Char) : Prop :=
  c.isAlphanum = true ∧ (f c).isAlphanum = true ∧ g (f c) = c

instance (f g : Char → Char) (c : Char) : Decidable (Recased f g c) :=
  inferInstanceAs (Decidable (_ ∧ _ ∧ _))

theorem recased_alphaText {n : Nat} : ∀ c ∈ alphaText n, Recased Char.toUpper Char.toLower c := by
  have letters : ∀ i < 26, Recased Char.toUpper Char.toLower (Char.ofNat (97 + i)) := by
    decide +kernel
  intro c mem
  obtain ⟨i, small, rfl⟩ := mem_alphaText mem
  exact letters i small

theorem recased_romanText {n : Nat} : ∀ c ∈ romanText n, Recased Char.toLower Char.toUpper c := by
  have digits : (romanNumerals.flatMap (·.2)).all fun c =>
      decide (Recased Char.toLower Char.toUpper c) := by
    decide +kernel
  intro c mem
  obtain ⟨numeral, listed, inside⟩ := mem_romanText mem
  exact of_decide_eq_true
    (List.all_eq_true.mp digits c (List.mem_flatMap.mpr ⟨numeral, listed, inside⟩))

theorem map_map_recased {cs : List Char} {f g : Char → Char} (h : ∀ c ∈ cs, Recased f g c) :
    (cs.map f).map g = cs := by
  rw [List.map_map]
  exact (List.map_congr_left fun c mem => (h c mem).2.2).trans (List.map_id cs)

def value : CounterStyle → List Char → Nat
  | decimal, cs => Nat.ofDigitChars 10 cs 0
  | lowerAlpha, cs => alphaValue cs
  | upperAlpha, cs => alphaValue (cs.map Char.toLower)
  | lowerRoman, cs => romanValue (cs.map Char.toUpper)
  | upperRoman, cs => romanValue cs

theorem value_text (style : CounterStyle) (n : Nat) : style.value (style.text n) = n := by
  unfold text
  split
  · rename_i zero
    rw [zero]
    cases style <;> decide
  · cases style with
    | decimal => exact Nat.ofDigitChars_ten_toDigits
    | lowerAlpha => exact alphaValue_alphaText n
    | upperAlpha =>
      exact (congrArg alphaValue (map_map_recased recased_alphaText)).trans (alphaValue_alphaText n)
    | lowerRoman =>
      exact (congrArg romanValue (map_map_recased recased_romanText)).trans (romanValue_romanText n)
    | upperRoman => exact romanValue_romanText n

theorem text_injective (style : CounterStyle) : Function.Injective style.text := by
  intro m n same
  rw [← style.value_text m, same, style.value_text]

theorem text_ne_nil (style : CounterStyle) (n : Nat) : style.text n ≠ [] := by
  intro empty
  have value := style.value_text n
  have none : style.value [] = 0 := by cases style <;> rfl
  rw [empty, none] at value
  subst value
  contradiction

theorem isAlphanum_of_mem_text {style : CounterStyle} {n : Nat} {c : Char}
    (h : c ∈ style.text n) : c.isAlphanum = true := by
  unfold text at h
  split at h
  · obtain rfl := List.mem_singleton.mp h
    decide
  · cases style with
    | decimal =>
      have digit := Nat.isDigit_of_mem_toDigits (by decide) (by decide) h
      rw [Char.isAlphanum, digit, Bool.or_true]
    | lowerAlpha => exact (recased_alphaText c h).1
    | upperRoman => exact (recased_romanText c h).1
    | upperAlpha =>
      obtain ⟨letter, mem, rfl⟩ := List.mem_map.mp h
      exact (recased_alphaText letter mem).2.1
    | lowerRoman =>
      obtain ⟨digit, mem, rfl⟩ := List.mem_map.mp h
      exact (recased_romanText digit mem).2.1

end CounterStyle
end Quire
