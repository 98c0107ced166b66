import Quire.Proofs.Json.Tokens

/-!
# Reading back the text of a JSON value

A value whose numbers are natural and whose strings can be decoded is what its compact text reads
as. The steps that the reader needs are bounded by the length of the text, so that they never run
out.
-/

namespace Quire.Json

/-- A value whose text says all there is to it. -/
inductive Readable : Json → Prop
  | null : Readable .null
  | bool (value : Bool) : Readable (.bool value)
  | ofNat (n : Nat) : Readable (.ofNat n)
  | string (text : String) : Readable (.string text)
  | array {items : List Json} (each : ∀ item ∈ items, Readable item) : Readable (.array items)
  | object {members : List (String × Json)} (each : ∀ member ∈ members, Readable member.2) :
    Readable (.object members)

@[simp]
theorem readable_string (text : String) : (Json.string text).Readable := .string text

@[simp]
theorem readable_bool (value : Bool) : (Json.bool value).Readable := .bool value

@[simp]
theorem readable_ofNat (n : Nat) : (Json.ofNat n).Readable := .ofNat n

theorem readable_array {items : List Json} :
    (Json.array items).Readable ↔ ∀ item ∈ items, item.Readable := by
  constructor
  · intro readable
    cases readable with
    | array each => exact each
  · exact Readable.array

@[simp]
theorem readable_object {members : List (String × Json)} :
    (Json.object members).Readable ↔ ∀ member ∈ members, member.2.Readable := by
  constructor
  · intro readable
    cases readable with
    | object each => exact each
  · exact Readable.object

@[simp]
theorem readable_ofOption {α : Type} {f : α → Json} {value : Option α} :
    (ofOption f value).Readable ↔ ∀ a, value = some a → (f a).Readable := by
  cases value with
  | none => simpa [ofOption] using Readable.null
  | some a => simp [ofOption]

@[simp]
theorem readable_optionalMember {α : Type} {name : String} {f : α → Json} {value : Option α} :
    (∀ other json, (other, json) ∈ optionalMember name f value → json.Readable) ↔
      ∀ a, value = some a → (f a).Readable := by
  cases value with
  | none => simp [optionalMember]
  | some a => simp [optionalMember]

/-! ### The characters of a text -/

theorem toList_quoted (text : String) :
    (quoted text).toList = '"' :: (text.toList.flatMap escapeChar ++ ['"']) := by
  simp [quoted]

def beginsValue (c : Char) : Bool := isDigit c || "ntf\"[\x7b".toList.contains c

theorem Readable.compact_eq_cons {json : Json} (readable : json.Readable) :
    ∃ c cs, json.compact.toList = c :: cs ∧ beginsValue c = true := by
  cases readable with
  | null => exact ⟨'n', _, rfl, by decide⟩
  | bool value => cases value <;> exact ⟨_, _, rfl, by decide⟩
  | ofNat n =>
    obtain ⟨c, cs, front, digit⟩ := decimal_eq_cons n
    refine ⟨c, cs, front, ?_⟩
    simp [beginsValue, digit]
  | string text => exact ⟨'"', _, toList_quoted text, by decide⟩
  | array => simp [compact, beginsValue]
  | object => simp [compact, beginsValue]

/-- No blank stands before a value, and it is not the end of an array. -/
theorem beginsValue_spec {c : Char} (begins : beginsValue c = true) :
    isSpace c = false ∧ c ≠ ']' := by
  constructor
  · by_contra space
    simp only [isSpace, Bool.not_eq_false, Bool.or_eq_true, beq_iff_eq] at space
    rcases space with ((rfl | rfl) | rfl) | rfl
    all_goals exact absurd begins (by decide)
  · rintro rfl
    exact absurd begins (by decide)

theorem skipSpace_of_solid {c : Char} {cs : List Char} (solid : isSpace c = false) :
    skipSpace (c :: cs) = c :: cs := by
  simp [skipSpace, solid]

theorem readValue_digit {c : Char} {cs : List Char} (steps : Nat) (digit : isDigit c = true) :
    readValue (steps + 1) (c :: cs) = readNumber? (c :: cs) := by
  have solid : isSpace c = false := (beginsValue_spec (by simp [beginsValue, digit])).1
  have other : ∀ d, isDigit d = false → c ≠ d := by
    rintro d no rfl
    rw [no] at digit
    exact Bool.noConfusion digit
  simp [readValue, skipSpace_of_solid solid, other 'n' (by decide), other 't' (by decide),
    other 'f' (by decide), other '"' (by decide), other '[' (by decide), other '\x7b' (by decide)]

/-! ### Values -/

/-- A value that its text is read as, whatever follows that cannot be part of a number. -/
def ReadsBack (json : Json) : Prop :=
  ∀ (steps : Nat) (rest : List Char), 2 * json.compact.toList.length ≤ steps → EndsNumber rest →
    readValue (steps + 1) (json.compact.toList ++ rest) = some (json, rest)

theorem endsNumber_cons {c : Char} (rest : List Char) (ends : c = ',' ∨ c = ']' ∨ c = '\x7d') :
    EndsNumber (c :: rest) := by
  intro d first
  rw [List.head?_cons, Option.mem_some] at first
  subst first
  rcases ends with rfl | rfl | rfl
  all_goals decide

theorem endsNumber_items (items : List Json) (rest : List Char) :
    EndsNumber ((compactItems "," items).toList ++ ']' :: rest) := by
  cases items with
  | nil => exact endsNumber_cons rest (.inr (.inl rfl))
  | cons item items =>
    simp only [compactItems, String.toList_append]
    exact endsNumber_cons _ (.inl rfl)

theorem endsNumber_members (members : List (String × Json)) (rest : List Char) :
    EndsNumber ((compactMembers "," members).toList ++ '\x7d' :: rest) := by
  cases members with
  | nil => exact endsNumber_cons rest (.inr (.inr rfl))
  | cons member members =>
    simp only [compactMembers, String.toList_append]
    exact endsNumber_cons _ (.inl rfl)

/-- From the first item of an array on. -/
theorem readItems_compactItems {item : Json} {items : List Json}
    (each : ∀ x ∈ item :: items, ReadsBack x) (before : List Json) (steps : Nat)
    (rest : List Char)
    (enough : 2 * (item.compact.toList ++ (compactItems "," items).toList).length ≤ steps) :
    readItems (steps + 2) before
        (item.compact.toList ++ ((compactItems "," items).toList ++ ']' :: rest)) =
      some (.array (before.reverse ++ item :: items), rest) := by
  induction items generalizing item before steps with
  | nil =>
    have read := each item List.mem_cons_self steps _
      (by rw [List.length_append] at enough; omega) (endsNumber_items [] rest)
    have closing : skipSpace ((compactItems "," []).toList ++ ']' :: rest) = ']' :: rest := by
      simp [compactItems, skipSpace, isSpace]
    unfold readItems
    simp [read, closing]
  | cons next items ih =>
    have comma : skipSpace ((compactItems "," (next :: items)).toList ++ ']' :: rest) =
        ',' :: (next.compact.toList ++ ((compactItems "," items).toList ++ ']' :: rest)) := by
      simp [compactItems, skipSpace, isSpace]
    have longer : (compactItems "," (next :: items)).toList.length =
        1 + (next.compact.toList ++ (compactItems "," items).toList).length := by
      simp only [compactItems, String.toList_append, List.length_append]
      have one : ",".toList.length = 1 := rfl
      omega
    rw [List.length_append, longer] at enough
    obtain ⟨fewer, rfl⟩ : ∃ n, steps = n + 1 := ⟨steps - 1, by omega⟩
    have read := each item List.mem_cons_self (fewer + 1) _ (by omega)
      (endsNumber_items (next :: items) rest)
    have others := ih (fun x mem => each x (List.mem_cons_of_mem item mem)) (item :: before)
      fewer (by omega)
    unfold readItems
    simp [read, comma, others]

theorem readName?_quoted (name : String) (rest : List Char) :
    readName? (skipSpace ((quoted name).toList ++ ':' :: rest)) = some (some name, rest) := by
  have quote : skipSpace ((quoted name).toList ++ ':' :: rest) =
      '"' :: (name.toList.flatMap escapeChar ++ '"' :: ':' :: rest) := by
    simp [toList_quoted, skipSpace, isSpace]
  rw [quote, readName?, readString_escaped]
  simp [skipSpace, isSpace]

/-- A member as the reader keeps it, with a name that could be decoded. -/
def named (member : String × Json) : Option String × Json := (some member.1, member.2)

theorem mapM_named {decode : Option String × Json → Option (String × Json)}
    (each : ∀ member, decode (named member) = some member) (members : List (String × Json)) :
    (members.map named).mapM decode = some members := by
  induction members with
  | nil => rfl
  | cons member members ih =>
    rw [List.map_cons, List.mapM_cons, ih, each]
    rfl

theorem objectOf_named (members : List (String × Json)) :
    objectOf (members.map named) = .object members := by
  rw [objectOf, mapM_named fun _ => rfl]

/-- From the first member of an object on. -/
theorem readMembers_compactMembers {member : String × Json} {members : List (String × Json)}
    (each : ∀ x ∈ member :: members, ReadsBack x.2) (before : List (String × Json)) (steps : Nat)
    (rest : List Char)
    (enough : 2 * (member.2.compact.toList ++ (compactMembers "," members).toList).length ≤
      steps) :
    readMembers (steps + 2) (before.map named)
        ((quoted member.1).toList ++ ':' :: (member.2.compact.toList ++
          ((compactMembers "," members).toList ++ '\x7d' :: rest))) =
      some (.object (before.reverse ++ member :: members), rest) := by
  induction members generalizing member before steps with
  | nil =>
    have read := each member List.mem_cons_self steps _
      (by rw [List.length_append] at enough; omega) (endsNumber_members [] rest)
    have closing : skipSpace ((compactMembers "," []).toList ++ '\x7d' :: rest) =
        '\x7d' :: rest := by
      simp [compactMembers, skipSpace, isSpace]
    have all : objectOf (((some member.1, member.2) :: before.map named).reverse) =
        .object (before.reverse ++ [member]) := by
      rw [← objectOf_named (before.reverse ++ [member])]
      simp [named]
    unfold readMembers
    simp only [readName?_quoted, read, closing, all]
  | cons next members ih =>
    have comma : skipSpace ((compactMembers "," (next :: members)).toList ++ '\x7d' :: rest) =
        ',' :: ((quoted next.1).toList ++ ':' :: (next.2.compact.toList ++
          ((compactMembers "," members).toList ++ '\x7d' :: rest))) := by
      simp [compactMembers, skipSpace, isSpace]
    have longer : (next.2.compact.toList ++ (compactMembers "," members).toList).length + 1 ≤
        (compactMembers "," (next :: members)).toList.length := by
      simp only [compactMembers, String.toList_append, List.length_append]
      have one : ",".toList.length = 1 := rfl
      omega
    rw [List.length_append] at enough
    obtain ⟨fewer, rfl⟩ : ∃ n, steps = n + 1 := ⟨steps - 1, by omega⟩
    have read := each member List.mem_cons_self (fewer + 1) _ (by omega)
      (endsNumber_members (next :: members) rest)
    have others := ih (fun x mem => each x (List.mem_cons_of_mem member mem)) (member :: before)
      fewer (by omega)
    rw [List.map_cons, named, List.reverse_cons, List.append_assoc, List.singleton_append] at others
    unfold readMembers
    simp only [readName?_quoted, read, comma, others]

/-- The first character of an item is no blank and does not end the array. -/
theorem readValue_array {item : Json} (readable : item.Readable) (steps : Nat) (rest : List Char) :
    readValue (steps + 1) ('[' :: (item.compact.toList ++ rest)) =
      readItems steps [] (item.compact.toList ++ rest) := by
  obtain ⟨c, cs, front, begins⟩ := readable.compact_eq_cons
  obtain ⟨solid, notEnd⟩ := beginsValue_spec begins
  have inner : skipSpace (c :: (cs ++ rest)) = c :: (cs ++ rest) := skipSpace_of_solid solid
  have outer : skipSpace ('[' :: c :: (cs ++ rest)) = '[' :: c :: (cs ++ rest) :=
    skipSpace_of_solid (by decide)
  rw [front, List.cons_append]
  simp [readValue, outer, inner, notEnd]

theorem readValue_object (name : String) (steps : Nat) (rest : List Char) :
    readValue (steps + 1) ('\x7b' :: ((quoted name).toList ++ rest)) =
      readMembers steps [] ((quoted name).toList ++ rest) := by
  simp [readValue, toList_quoted, skipSpace, isSpace]

/-- Reading the text of a value gives the value and what follows it. -/
theorem Readable.readsBack {json : Json} (readable : json.Readable) : ReadsBack json := by
  -- The bracket that opens a container pays for the two steps into it.
  induction readable with
  | null =>
    intro steps rest _ _
    simp [compact, leafText, readValue, skipSpace, isSpace]
  | bool value =>
    intro steps rest _ _
    cases value
    · simp [compact, leafText, readValue, skipSpace, isSpace]
    · simp [compact, leafText, readValue, skipSpace, isSpace]
  | ofNat n =>
    intro steps rest _ ends
    have read := readNumber?_decimal n ends
    obtain ⟨c, cs, front, digit⟩ := decimal_eq_cons n
    rw [front, List.cons_append] at read
    simp only [Json.ofNat, compact, leafText, front, List.cons_append]
    rw [readValue_digit steps digit, read]
    rfl
  | string text =>
    intro steps rest _ _
    simp [compact, leafText, toList_quoted, readValue, skipSpace, isSpace, readString_escaped]
  | @array items each ih =>
    intro steps rest enough _
    cases items with
    | nil => simp [compact, compactItems, readValue, skipSpace, isSpace]
    | cons item items =>
      have length : (Json.array (item :: items)).compact.toList.length =
          2 + (item.compact.toList ++ (compactItems "," items).toList).length := by
        simp [compact, compactItems]
        omega
      obtain ⟨fewer, rfl⟩ : ∃ n, steps = n + 2 := ⟨steps - 2, by omega⟩
      have read := readItems_compactItems ih [] fewer rest (by omega)
      simp [compact, compactItems, readValue_array (each item List.mem_cons_self), read]
  | @object members each ih =>
    intro steps rest enough _
    cases members with
    | nil => simp [compact, compactMembers, readValue, skipSpace, isSpace]
    | cons member members =>
      have length : 2 + (member.2.compact.toList ++ (compactMembers "," members).toList).length ≤
          (Json.object (member :: members)).compact.toList.length := by
        simp [compact, compactMembers]
        omega
      obtain ⟨fewer, rfl⟩ : ∃ n, steps = n + 2 := ⟨steps - 2, by omega⟩
      have read := readMembers_compactMembers ih [] fewer rest (by omega)
      rw [List.map_nil] at read
      simp [compact, compactMembers, readValue_object, read]

theorem read?_compact {json : Json} (readable : json.Readable) :
    read? json.compact = some json := by
  have read := readable.readsBack (2 * json.compact.toList.length + 1) [] (by omega)
    endsNumber_nil
  rw [List.append_nil] at read
  simp [read?, read, skipSpace]

end Quire.Json
