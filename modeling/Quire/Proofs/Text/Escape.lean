import Quire.Text.Escape

/-!
# Escaped text

None of the signs that markup is made of is left in an escaped text, and the text can be read back.
-/

namespace Quire.Text

/-- Put characters in the place of the entities that stand for them, from left to right. -/
def unescapeMarkup : List Char → List Char
  | '&' :: 'a' :: 'm' :: 'p' :: ';' :: rest => '&' :: unescapeMarkup rest
  | '&' :: 'l' :: 't' :: ';' :: rest => '<' :: unescapeMarkup rest
  | '&' :: 'g' :: 't' :: ';' :: rest => '>' :: unescapeMarkup rest
  | '&' :: 'q' :: 'u' :: 'o' :: 't' :: ';' :: rest => '"' :: unescapeMarkup rest
  | '&' :: '#' :: '3' :: '9' :: ';' :: rest => '\'' :: unescapeMarkup rest
  | c :: rest => c :: unescapeMarkup rest
  | [] => []

theorem unescapeMarkup_of_ne {c : Char} (h : c ≠ '&') (rest : List Char) :
    unescapeMarkup (c :: rest) = c :: unescapeMarkup rest := by
  rw [unescapeMarkup]
  all_goals
    intros
    simp_all

theorem unescapeMarkup_markupChar (c : Char) (rest : List Char) :
    unescapeMarkup (markupChar c ++ rest) = c :: unescapeMarkup rest := by
  unfold markupChar
  split
  case h_6 ne _ _ _ _ => exact unescapeMarkup_of_ne ne rest
  all_goals simp [unescapeMarkup]

theorem escapeMarkup_append (s t : String) :
    escapeMarkup (s ++ t) = escapeMarkup s ++ escapeMarkup t := by
  simp only [escapeMarkup, String.toList_append, List.flatMap_append, String.ofList_append]

theorem unescapeMarkup_escapeMarkup (s : String) :
    unescapeMarkup (escapeMarkup s).toList = s.toList := by
  rw [escapeMarkup, String.toList_ofList]
  generalize s.toList = cs
  induction cs with
  | nil => rfl
  | cons c rest ih => rw [List.flatMap_cons, unescapeMarkup_markupChar, ih]

theorem escapeMarkup_injective {s t : String} (h : escapeMarkup s = escapeMarkup t) : s = t := by
  have same := congrArg (fun text => unescapeMarkup text.toList) h
  simp only [unescapeMarkup_escapeMarkup] at same
  exact String.toList_inj.mp same

theorem mem_markupChar {c d : Char} (h : d ∈ markupChar c) :
    d ≠ '<' ∧ d ≠ '>' ∧ d ≠ '"' ∧ d ≠ '\'' := by
  unfold markupChar at h
  split at h
  case h_6 less greater quote apostrophe =>
    obtain rfl := List.mem_singleton.mp h
    exact ⟨less, greater, quote, apostrophe⟩
  all_goals
    refine ⟨?_, ?_, ?_, ?_⟩ <;>
      · rintro rfl
        simp at h

theorem mem_escapeMarkup {s : String} {c : Char} (h : c ∈ (escapeMarkup s).toList) :
    c ≠ '<' ∧ c ≠ '>' ∧ c ≠ '"' ∧ c ≠ '\'' := by
  rw [escapeMarkup, String.toList_ofList, List.mem_flatMap] at h
  obtain ⟨source, -, mem⟩ := h
  exact mem_markupChar mem

def entities : List String := ["&amp;", "&lt;", "&gt;", "&quot;", "&#39;"]

/-- A character becomes an entity, or stands for itself and is no ampersand. -/
theorem markupChar_cases (c : Char) :
    (∃ entity ∈ entities, ∃ name, markupChar c = entity.toList ∧ entity.toList = '&' :: name ∧
      '&' ∉ name) ∨ (markupChar c = [c] ∧ '&' ∉ [c]) := by
  unfold markupChar
  split
  case h_6 ampersand _ _ _ _ =>
    exact .inr ⟨rfl, fun mem => ampersand (List.mem_singleton.mp mem).symm⟩
  all_goals exact .inl ⟨_, by simp [entities], _, rfl, String.toList_ofList, by decide⟩

theorem suffix_of_notMem {c : Char} {behind name rest : List Char} (absent : c ∉ name)
    (h : c :: behind <:+ name ++ rest) : c :: behind <:+ rest := by
  induction name with
  | nil => exact h
  | cons d name ih =>
    rw [List.mem_cons, not_or] at absent
    rcases List.suffix_cons_iff.mp h with same | h
    · exact absurd (List.cons.inj same).1 absent.1
    · exact ih absent.2 h

/-- Every ampersand starts an entity. -/
theorem entity_of_ampersand {s : String} {behind : List Char}
    (h : '&' :: behind <:+ (escapeMarkup s).toList) :
    ∃ entity ∈ entities, entity.toList <+: '&' :: behind := by
  rw [escapeMarkup, String.toList_ofList] at h
  generalize s.toList = cs at h
  induction cs with
  | nil =>
    have empty := List.suffix_nil.mp h
    contradiction
  | cons c rest ih =>
    rw [List.flatMap_cons] at h
    rcases markupChar_cases c with ⟨entity, mem, name, escape, start, absent⟩ | ⟨escape, absent⟩
    · rw [escape, start] at h
      rcases List.suffix_cons_iff.mp h with whole | h
      · refine ⟨entity, mem, ?_⟩
        rw [whole, start]
        exact List.prefix_append _ _
      · exact ih (suffix_of_notMem absent h)
    · rw [escape] at h
      exact ih (suffix_of_notMem absent h)

end Quire.Text
