import Quire.Config.Basic
import Quire.Proofs.Text.Cut

/-!
# Default labels

Without formats of its own a document labels captions by their count, or by the number of a section
and the count in it with a full stop in between. Either way the label tells the counters.
-/

namespace Quire

open NumberingScheme

theorem CounterStyle.text_decimal (n : Nat) : CounterStyle.decimal.text n = Nat.toDigits 10 n := by
  rw [text]
  split
  · rename_i zero
    rw [zero]
    rfl
  · rfl

namespace DocumentType

def captionDepth : DocumentType → Nat
  | plain => 1
  | paged => 2
  | slides => 1

def captionLabel (location : Location) : DocumentType → String
  | plain => decimal (location.ordinalAt 0)
  | paged => decimal (location.sectionAt 0) ++ "." ++ decimal (location.ordinalAt 1)
  | slides => decimal (location.ordinalAt 0)

theorem counters_of_captionLabel (type : DocumentType) {a b : Location}
    (same : type.captionLabel a = type.captionLabel b) :
    captionCounters type.captionDepth a = captionCounters type.captionDepth b := by
  have counts : decimal (a.ordinalAt 0) = decimal (b.ordinalAt 0) →
      captionCounters 1 a = captionCounters 1 b := by
    intro equal
    simp [captionCounters, decimal_injective equal]
  cases type with
  | plain => exact counts same
  | slides => exact counts same
  | paged =>
    have digits : ∀ n, ∀ c ∈ (decimal n).toList, c.isDigit = true := fun n c =>
      isDigit_of_mem_decimal
    have texts := congrArg String.toList same
    simp only [captionLabel, String.toList_append, List.append_assoc] at texts
    obtain ⟨sections, rest⟩ := cut_at_stop (digits _) (digits _) (by simp) (by simp) texts
    have ordinals := String.toList_inj.mp (List.append_cancel_left rest)
    simp [captionDepth, captionCounters, decimal_injective (String.toList_inj.mp sections),
      decimal_injective ordinals]

theorem mem_captionLabel {type : DocumentType} {location : Location} {c : Char}
    (mem : c ∈ (type.captionLabel location).toList) : c.isDigit = true ∨ c = '.' := by
  cases type with
  | plain => exact .inl (isDigit_of_mem_decimal mem)
  | slides => exact .inl (isDigit_of_mem_decimal mem)
  | paged =>
    simp only [captionLabel, String.toList_append, List.mem_append] at mem
    rcases mem with (sections | stop) | ordinals
    · exact .inl (isDigit_of_mem_decimal sections)
    · exact .inr (List.mem_singleton.mp stop)
    · exact .inl (isDigit_of_mem_decimal ordinals)

end DocumentType

/-- The default formats are numbering formats, and they give captions the default labels. -/
theorem NumberingFormats.read_default (type : DocumentType) :
    ∃ scheme, (NumberingFormats.default type).read = .ok scheme ∧
      ∀ kind ≠ .heading, ∀ location,
        scheme.label kind location = some (type.captionLabel location) := by
  have one : ∀ n, String.ofList ([] ++ CounterStyle.decimal.text n ++ []) = decimal n := by
    intro n
    rw [CounterStyle.text_decimal, List.nil_append, List.append_nil]
    rfl
  have two : ∀ m n, String.ofList ([] ++ CounterStyle.decimal.text m ++
      (['.'] ++ CounterStyle.decimal.text n ++ [])) = decimal m ++ "." ++ decimal n := by
    intro m n
    rw [CounterStyle.text_decimal, CounterStyle.text_decimal, List.nil_append, List.append_nil,
      String.ofList_append, String.ofList_append, ← String.append_assoc]
    rfl
  cases type with
  | plain | slides =>
    refine ⟨_, rfl, fun kind caption location => ?_⟩
    cases kind with
    | heading => contradiction
    | figure | table => exact congrArg some (one _)
  | paged =>
    refine ⟨_, rfl, fun kind caption location => ?_⟩
    cases kind with
    | heading => contradiction
    | figure | table => exact congrArg some (two _ _)

end Quire
