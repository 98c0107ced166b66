import Quire.Numbering.Scheme
import Quire.Proofs.Numbering.Counter
import Quire.Proofs.Text.Cut

/-!
# Reading formats back

A format in which any two neighbouring counters are kept apart by more than letters and digits
writes different counters differently, however many of its counters are used.
-/

namespace Quire

namespace NumberingFormat

/-- The counters of a format, each with the literals in front of it. -/
def partsFrom (pending : List Char) : List FormatSymbol → List (List Char × CounterStyle)
  | [] => []
  | .literal c :: rest => partsFrom (pending ++ [c]) rest
  | .counter style :: rest => (pending, style) :: partsFrom [] rest

def parts (format : NumberingFormat) : List (List Char × CounterStyle) :=
  partsFrom [] format.symbols

/-- Write counters part by part, as far as there are both. -/
def writeParts : List (List Char × CounterStyle) → List Nat → List Char
  | (literals, style) :: parts, value :: values =>
    literals ++ (style.text value ++ writeParts parts values)
  | [], _ => []
  | _ :: _, [] => []

/-- A literal that no text of a counter contains. -/
def IsSeparator (c : Char) : Prop := c.isAlphanum = false

/-- Between any two neighbouring counters stands a separator. -/
def IsSeparated (format : NumberingFormat) : Prop :=
  ∀ part ∈ format.parts.tail, ∃ c ∈ part.1, IsSeparator c

instance (format : NumberingFormat) : Decidable format.IsSeparated :=
  decidable_of_iff (format.parts.tail.all fun part => part.1.any fun c => !c.isAlphanum)
    (by simp [IsSeparated, IsSeparator])

theorem formatSymbols_eq_writeParts (pending : List Char) (symbols : List FormatSymbol)
    (values : List Nat) :
    formatSymbols pending symbols values = writeParts (partsFrom pending symbols) values := by
  induction symbols generalizing pending values with
  | nil => rfl
  | cons symbol rest ih =>
    cases symbol with
    | literal c => exact ih (pending ++ [c]) values
    | counter style =>
      cases values with
      | nil => rfl
      | cons value values =>
        rw [formatSymbols, partsFrom, writeParts, ih, List.append_assoc]

theorem write_eq (format : NumberingFormat) (values : List Nat) :
    format.write values = String.ofList (writeParts format.parts values) := by
  rw [write, formatSymbols_eq_writeParts]
  rfl

theorem length_parts (format : NumberingFormat) : format.parts.length = format.depth := by
  have counted : ∀ symbols pending,
      (partsFrom pending symbols).length = symbols.countP FormatSymbol.isCounter := by
    intro symbols
    induction symbols with
    | nil => exact fun _ => rfl
    | cons symbol rest ih =>
      intro pending
      cases symbol with
      | literal c => exact ih _
      | counter style => rw [partsFrom, List.length_cons, ih, List.countP_cons_of_pos rfl]
  exact counted format.symbols []

theorem depth_positive (format : NumberingFormat) : 0 < format.depth :=
  List.countP_pos_iff.mpr (List.any_eq_true.mp format.hasCounter)

/-- Literals up to their first separator. -/
theorem exists_first_separator {literals : List Char} (h : ∃ c ∈ literals, IsSeparator c) :
    ∃ before c after, literals = before ++ c :: after ∧ IsSeparator c ∧
      ∀ d ∈ before, d.isAlphanum = true := by
  obtain ⟨c, mem, separator⟩ := h
  have present : (literals.find? fun c => !c.isAlphanum).isSome = true := by
    rw [List.find?_isSome]
    exact ⟨c, mem, by rw [separator]; rfl⟩
  obtain ⟨c, found⟩ := Option.isSome_iff_exists.mp present
  obtain ⟨stops, before, after, split, earlier⟩ := List.find?_eq_some_iff_append.mp found
  refine ⟨before, c, after, split, ?_, fun d mem => ?_⟩
  · rwa [Bool.not_eq_true'] at stops
  · have passed := earlier d mem
    rwa [Bool.not_eq_true', Bool.not_eq_false'] at passed

/-- What follows a counter: nothing, or letters and digits that only depend on the format and then
a separator. -/
theorem writeParts_separated {parts : List (List Char × CounterStyle)}
    (separated : ∀ part ∈ parts, ∃ c ∈ part.1, IsSeparator c) :
    ∃ before : List Char, (∀ c ∈ before, c.isAlphanum = true) ∧
      ∀ values, writeParts parts values = [] ∨
        ∃ c rest, IsSeparator c ∧ writeParts parts values = before ++ c :: rest := by
  cases parts with
  | nil => exact ⟨[], nofun, fun _ => .inl rfl⟩
  | cons part parts =>
    obtain ⟨literals, style⟩ := part
    obtain ⟨before, c, after, rfl, separator, plain⟩ :=
      exists_first_separator (separated _ List.mem_cons_self)
    refine ⟨before, plain, fun values => ?_⟩
    cases values with
    | nil => exact .inl rfl
    | cons value values =>
      right
      refine ⟨c, after ++ (style.text value ++ writeParts parts values), separator, ?_⟩
      rw [writeParts, List.append_assoc, List.cons_append]

/-- The text of a counter ends where what follows it tells. -/
theorem cut_at_separator {parts : List (List Char × CounterStyle)}
    (separated : ∀ part ∈ parts, ∃ c ∈ part.1, IsSeparator c) {a b : List Char}
    (ha : ∀ c ∈ a, c.isAlphanum = true) (hb : ∀ c ∈ b, c.isAlphanum = true) {m n : List Nat}
    (same : a ++ writeParts parts m = b ++ writeParts parts n) :
    a = b ∧ writeParts parts m = writeParts parts n := by
  have stops : ∀ {a b before rest : List Char} {c : Char}, (∀ c ∈ a, c.isAlphanum = true) →
      IsSeparator c → a ++ [] ≠ b ++ (before ++ c :: rest) := by
    intro a b before rest c plain separator equal
    have mem : c ∈ a := by
      rw [List.append_nil] at equal
      rw [equal]
      simp
    have letter := plain c mem
    rw [separator] at letter
    contradiction
  obtain ⟨before, plain, follows⟩ := writeParts_separated separated
  rcases follows m with emptyM | ⟨c, after, separatorC, restM⟩
  · rcases follows n with emptyN | ⟨d, later, separatorD, restN⟩
    · rw [emptyM, emptyN, List.append_nil, List.append_nil] at same
      exact ⟨same, emptyM.trans emptyN.symm⟩
    · rw [emptyM, restN] at same
      exact absurd same (stops ha separatorD)
  · rcases follows n with emptyN | ⟨d, later, separatorD, restN⟩
    · rw [restM, emptyN] at same
      exact absurd same.symm (stops hb separatorC)
    · -- letters and digits in front of the separator are taken along, and cancelled behind the cut
      have longer : ∀ {a : List Char}, (∀ c ∈ a, c.isAlphanum = true) →
          ∀ c ∈ a ++ before, c.isAlphanum = true := by
        intro a letters c mem
        rcases List.mem_append.mp mem with first | second
        · exact letters c first
        · exact plain c second
      rw [restM, restN, ← List.append_assoc, ← List.append_assoc] at same
      obtain ⟨front, back⟩ := cut_at_stop (longer ha) (longer hb)
        (by simpa [IsSeparator] using separatorC) (by simpa [IsSeparator] using separatorD) same
      rw [restM, restN, back]
      exact ⟨List.append_cancel_right front, rfl⟩

theorem writeParts_injective {parts : List (List Char × CounterStyle)}
    (separated : ∀ part ∈ parts.tail, ∃ c ∈ part.1, IsSeparator c) {a b : List Nat}
    (ha : a.length ≤ parts.length) (hb : b.length ≤ parts.length)
    (same : writeParts parts a = writeParts parts b) : a = b := by
  induction parts generalizing a b with
  | nil =>
    have empty : ∀ {values : List Nat}, values.length ≤ 0 → values = [] :=
      fun short => List.length_eq_zero_iff.mp (Nat.le_zero.mp short)
    rw [empty ha, empty hb]
  | cons part parts ih =>
    obtain ⟨literals, style⟩ := part
    have written : ∀ value values,
        writeParts ((literals, style) :: parts) (value :: values) ≠ [] := by
      intro value values empty
      have texts := (List.append_eq_nil_iff.mp empty).2
      exact style.text_ne_nil value (List.append_eq_nil_iff.mp texts).1
    cases a with
    | nil =>
      cases b with
      | nil => rfl
      | cons v b => exact absurd same.symm (written v b)
    | cons u a =>
      cases b with
      | nil => exact absurd same (written u a)
      | cons v b =>
        rw [writeParts, writeParts, List.append_cancel_left_eq] at same
        obtain ⟨counter, rest⟩ := cut_at_separator separated
          (fun _ => CounterStyle.isAlphanum_of_mem_text)
          (fun _ => CounterStyle.isAlphanum_of_mem_text) same
        have tails : a = b :=
          ih (fun part mem => separated part (List.mem_of_mem_tail mem))
            (by simpa using ha) (by simpa using hb) rest
        rw [style.text_injective counter, tails]

theorem write_injective {format : NumberingFormat} (separated : format.IsSeparated)
    {a b : List Nat} (ha : a.length ≤ format.depth) (hb : b.length ≤ format.depth)
    (same : format.write a = format.write b) : a = b := by
  rw [← length_parts] at ha hb
  rw [write_eq, write_eq] at same
  exact writeParts_injective separated ha hb (String.ofList_injective same)

end NumberingFormat
end Quire
