import Mathlib.Data.List.Basic
import Quire.Json.Record
import Quire.Proofs.Json.Tokens

/-!
# Reading back records, choices and numbers

A record whose members are declared fields in their order, some of them left out, is read with
just these members. What a field holds is then told by its place among them, and a value that was
left out or written as null is read as missing.
-/

namespace Quire.Json

/-! ### Records -/

/-- The members are declared fields in their order, some of them left out. -/
class Declared (names : List String) (members : List (String × Json)) : Prop where
  sublist : (members.map (·.1)).Sublist names

namespace Declared

variable {names : List String} {members : List (String × Json)}

instance nil : Declared names [] := ⟨List.nil_sublist names⟩

instance cons (name : String) (value : Json) [declared : Declared names members] :
    Declared (name :: names) ((name, value) :: members) := ⟨declared.sublist.cons_cons name⟩

instance optional {α : Type} (name : String) (f : α → Json) (value : Option α)
    [declared : Declared names members] :
    Declared (name :: names) (optionalMember name f value ++ members) := by
  cases value with
  | none => exact ⟨declared.sublist.cons name⟩
  | some a => exact ⟨declared.sublist.cons_cons name⟩

instance lastOptional {α : Type} (name : String) (f : α → Json) (value : Option α) :
    Declared (name :: names) (optionalMember name f value) := by
  rw [← List.append_nil (optionalMember name f value)]
  exact optional name f value

end Declared

theorem isDistinct_eq (names : List String) : isDistinct names = decide names.Nodup := by
  induction names with
  | nil => rfl
  | cons name rest ih => simp [isDistinct, ih, List.nodup_cons]

@[simp]
theorem record?_object {names : List String} {members : List (String × Json)}
    [declared : Declared names members] (distinct : names.Nodup) :
    (Json.object members).record? names = some ⟨members⟩ := by
  have known : members.filter (fun member => names.contains member.1) = members := by
    rw [List.filter_eq_self]
    intro member mem
    rw [List.contains_iff_mem]
    exact declared.sublist.subset (List.mem_map_of_mem mem)
  have nodup : (members.map (·.1)).Nodup := distinct.sublist declared.sublist
  unfold record?
  simp only [known, isDistinct_eq, nodup, decide_true, if_true]

/-! ### Fields -/

namespace Record

@[simp]
theorem field?_nil (wanted : String) : (Record.mk []).field? wanted = none := rfl

@[simp]
theorem field?_cons (name : String) (value : Json) (members : List (String × Json))
    (wanted : String) :
    (Record.mk ((name, value) :: members)).field? wanted =
      if name = wanted then some value else (Record.mk members).field? wanted := by
  by_cases same : name = wanted
  · simp [field?, same]
  · simp [field?, same]

@[simp]
theorem field?_append (front members : List (String × Json)) (wanted : String) :
    (Record.mk (front ++ members)).field? wanted =
      ((Record.mk front).field? wanted).or ((Record.mk members).field? wanted) := by
  simp [field?, List.find?_append, Option.map_or]

@[simp]
theorem field?_optionalMember {α : Type} (name : String) (f : α → Json) (value : Option α)
    (wanted : String) :
    (Record.mk (optionalMember name f value)).field? wanted =
      if name = wanted then value.map f else none := by
  cases value with
  | none => simp [optionalMember]
  | some a => simp [optionalMember]

@[simp]
theorem required_eq {α : Type} (record : Record) (name : String) (decode : Json → Option α) :
    record.required name decode = (record.field? name).bind decode := rfl

@[simp]
theorem defaulted_eq {α : Type} (record : Record) (name : String) (value : α)
    (decode : Json → Option α) :
    record.defaulted name value decode = ((record.field? name).map decode).getD (some value) := by
  unfold defaulted
  cases record.field? name with
  | none => rfl
  | some json => rfl

end Record

/-- How a field that may be missing or null is read from what the record holds for it. -/
def optionalField {α : Type} (decode : Json → Option α) : Option Json → Option (Option α)
  | none => some none
  | some .null => some none
  | some json => (decode json).map some

@[simp]
theorem Record.optional_eq {α : Type} (record : Record) (name : String)
    (decode : Json → Option α) :
    record.optional name decode = optionalField decode (record.field? name) := rfl

theorem optionalField_some {α : Type} {decode : Json → Option α} {json : Json} {a : α}
    (back : decode json = some a) (solid : json ≠ .null) :
    optionalField decode (some json) = some (some a) := by
  unfold optionalField
  split
  · rename_i missing
    exact absurd missing (by simp)
  · rename_i null
    exact absurd (Option.some.inj null) solid
  · rename_i held
    rw [← Option.some.inj held, back]
    rfl

@[simp]
theorem optionalField_map {α : Type} {decode : Json → Option α} {f : α → Json} {value : Option α}
    (back : ∀ a, value = some a → decode (f a) = some a) (solid : ∀ a, f a ≠ .null) :
    optionalField decode (value.map f) = some value := by
  cases value with
  | none => rfl
  | some a => exact optionalField_some (back a rfl) (solid a)

@[simp]
theorem optionalField_ofOption {α : Type} {decode : Json → Option α} {f : α → Json}
    {value : Option α} (back : ∀ a, value = some a → decode (f a) = some a)
    (solid : ∀ a, f a ≠ .null) :
    optionalField decode (some (ofOption f value)) = some value := by
  cases value with
  | none => rfl
  | some a => exact optionalField_some (back a rfl) (solid a)

/-! ### Values -/

@[simp]
theorem text?_string (text : String) : text? (.string text) = some text := by rw [text?]

@[simp]
theorem flag?_bool (value : Bool) : flag? (.bool value) = some value := by rw [flag?]

@[simp]
theorem natural?_ofNat (n : Nat) : natural? (.ofNat n) = some n := by
  obtain ⟨c, cs, front, -⟩ := decimal_eq_cons n
  have digits : (decimal n).toList.all isDigit = true :=
    List.all_eq_true.mpr fun c => isDigit_of_mem_decimal
  rw [ofNat, natural?]
  simp only [digits, digitsValue_decimal]
  simp [front]

/-- Alternatives that are all there, each with a name of its own. -/
class Spelled {α : Type} (all : List α) (name : α → String) : Prop where
  complete : ∀ x, x ∈ all
  distinct : ∀ x ∈ all, ∀ y ∈ all, name x = name y → x = y

theorem find?_name {α : Type} {all : List α} {name : α → String} [spelled : Spelled all name]
    (x : α) : all.find? (name · == name x) = some x := by
  cases found : all.find? (name · == name x) with
  | none =>
    have missed := List.find?_eq_none.mp found x (spelled.complete x)
    exact absurd (beq_self_eq_true (name x)) missed
  | some y =>
    have same : name y = name x := by simpa using List.find?_some found
    rw [spelled.distinct y (spelled.complete y) x (spelled.complete x) same]

@[simp]
theorem plainChoice?_string {α : Type} {all : List α} {name : α → String} [Spelled all name]
    (room : Nat) (x : α) : plainChoice? room all name (.string (name x)) = some x := by
  rw [plainChoice?]
  exact find?_name x

end Quire.Json
