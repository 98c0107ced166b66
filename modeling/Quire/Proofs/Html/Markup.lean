import Quire.Proofs.Text.Cut

/-!
# Markup as text

A text in the form of markup is runs of text without angle brackets, and tags between them. There is
only one way to cut a text so, and thus the tags of a text are well defined.
-/

namespace Quire.Html

def isNameChar (c : Char) : Bool := c.isLower || c.isDigit || c == '-'

def isName (name : String) : Bool := !name.toList.isEmpty && name.toList.all isNameChar

def isTextChar (c : Char) : Bool := c != '<' && c != '>'

def isText (s : String) : Bool := s.toList.all isTextChar

theorem isText_append {s t : String} (hs : isText s = true) (ht : isText t = true) :
    isText (s ++ t) = true := by
  rw [isText, String.toList_append, List.all_append, Bool.and_eq_true]
  exact ⟨hs, ht⟩

def isValueChar (c : Char) : Bool := isTextChar c && c != '"'

/-- The elements without content, which their only tag closes. -/
def voidElements : List String := ["hr", "br", "img", "input"]

/-- An attribute as it is written, so the value is still escaped. -/
structure WrittenAttribute where
  name : String
  value : Option String
  deriving DecidableEq, Repr

namespace WrittenAttribute

/-- What stands behind the name. -/
def valueChars : Option String → List Char
  | some value => '=' :: '"' :: (value.toList ++ ['"'])
  | none => []

def chars (a : WrittenAttribute) : List Char := ' ' :: (a.name.toList ++ valueChars a.value)

structure Lawful (a : WrittenAttribute) : Prop where
  name : isName a.name = true
  value : ∀ value ∈ a.value, ∀ c ∈ value.toList, isValueChar c = true

def shape (a : WrittenAttribute) : WrittenAttribute :=
  { a with value := a.value.map fun _ => "" }

end WrittenAttribute

inductive Tag where
  | opening (name : String) (attributes : List WrittenAttribute)
  | closing (name : String)
  | selfClosing (name : String) (attributes : List WrittenAttribute)
  deriving DecidableEq, Repr

namespace Tag

def name : Tag → String
  | opening name _ => name
  | closing name => name
  | selfClosing name _ => name

def attributes : Tag → List WrittenAttribute
  | opening _ attributes => attributes
  | closing _ => []
  | selfClosing _ attributes => attributes

/-- What stands between the angle brackets. -/
def inner : Tag → List Char
  | opening name attributes => name.toList ++ attributes.flatMap WrittenAttribute.chars
  | closing name => '/' :: name.toList
  | selfClosing name attributes =>
    name.toList ++ (attributes.flatMap WrittenAttribute.chars ++ [' ', '/'])

def chars (tag : Tag) : List Char := '<' :: (tag.inner ++ ['>'])

/-- Whether it is right that a tag closes itself or does not. -/
def fits : Tag → Bool
  | opening name _ => !voidElements.contains name
  | closing _ => true
  | selfClosing name _ => voidElements.contains name

structure Lawful (tag : Tag) : Prop where
  name : isName tag.name = true
  attributes : ∀ a ∈ tag.attributes, a.Lawful
  fits : tag.fits = true

/-- The tag without the contents of its values. -/
def shape : Tag → Tag
  | opening name attributes => opening name (attributes.map WrittenAttribute.shape)
  | closing name => closing name
  | selfClosing name attributes => selfClosing name (attributes.map WrittenAttribute.shape)

/-- Whether tags close the elements that are open, the innermost first, and all that they open. -/
def nest : List String → List Tag → Bool
  | waiting, [] => waiting.isEmpty
  | waiting, opening name _ :: rest => nest (name :: waiting) rest
  | waiting, selfClosing _ _ :: rest => nest waiting rest
  | innermost :: waiting, closing name :: rest => name == innermost && nest waiting rest
  | [], closing _ :: _ => false

end Tag

/-- The run of text at the start, and each tag with the run behind it. -/
structure Markup where
  lead : String := ""
  rest : List (Tag × String) := []
  deriving DecidableEq, Repr

namespace Markup

def restChars (rest : List (Tag × String)) : List Char :=
  rest.flatMap fun part => part.1.chars ++ part.2.toList

def write (m : Markup) : String := String.ofList (m.lead.toList ++ restChars m.rest)

def tags (m : Markup) : List Tag := m.rest.map (·.1)

/-- Every element is closed, inside the element that it was opened in. -/
def IsNested (m : Markup) : Prop := Tag.nest [] m.tags = true

/-- The values of the attributes of a name in order, each one with the element it belongs to. -/
def valuesOf (m : Markup) (name : String) : List (String × String) :=
  m.tags.flatMap fun tag => tag.attributes.filterMap fun a =>
    if a.name = name then a.value.map (tag.name, ·) else none

structure Lawful (m : Markup) : Prop where
  lead : ∀ c ∈ m.lead.toList, isTextChar c = true
  tags : ∀ part ∈ m.rest, part.1.Lawful
  runs : ∀ part ∈ m.rest, ∀ c ∈ part.2.toList, isTextChar c = true

/-- A text is cut into the runs and tags of a markup. -/
structure Splits (m : Markup) (text : String) : Prop where
  lawful : m.Lawful
  write : m.write = text

end Markup

theorem isNameChar_of_isName {name : String} (h : isName name = true) :
    ∀ c ∈ name.toList, isNameChar c = true := by
  simp only [isName, Bool.and_eq_true, List.all_eq_true] at h
  exact h.2

namespace WrittenAttribute

theorem head_chars (attributes : List WrittenAttribute) :
    ∀ c ∈ (attributes.flatMap chars).head?, c = ' ' := by
  intro c mem
  cases attributes with
  | nil => simp at mem
  | cons a rest => simpa [chars, eq_comm] using mem

/-- A value ends where its closing quote stands, and behind it comes a blank or nothing. -/
theorem valueChars_unique {v w : Option String} {x y : List Char}
    (hv : ∀ s ∈ v, ∀ c ∈ s.toList, isValueChar c = true)
    (hw : ∀ s ∈ w, ∀ c ∈ s.toList, isValueChar c = true)
    (hx : ∀ c ∈ x.head?, c = ' ') (hy : ∀ c ∈ y.head?, c = ' ')
    (h : valueChars v ++ x = valueChars w ++ y) : v = w ∧ x = y := by
  cases v with
  | none =>
    cases w with
    | none => exact ⟨rfl, h⟩
    | some w =>
      have first : x.head? = some '=' := by
        rw [show x = valueChars none ++ x from rfl, h]
        rfl
      have blank := hx '=' first
      simp at blank
  | some v =>
    cases w with
    | none =>
      have first : y.head? = some '=' := by
        rw [show y = valueChars none ++ y from rfl, ← h]
        rfl
      have blank := hy '=' first
      simp at blank
    | some w =>
      have quoted : ∀ s : String, (∀ c ∈ s.toList, isValueChar c = true) →
          ∀ c ∈ s.toList, (c != '"') = true := by
        intro s lawful c mem
        have char := lawful c mem
        rw [isValueChar, Bool.and_eq_true] at char
        exact char.2
      simp only [valueChars, List.cons_append, List.cons.injEq, true_and, List.append_assoc,
        List.nil_append] at h
      obtain ⟨same, later⟩ :=
        cut_at_stop (quoted v (hv v rfl)) (quoted w (hw w rfl)) (by simp) (by simp) h
      exact ⟨congrArg some (String.toList_inj.mp same), (List.cons.inj later).2⟩

/-- Behind the name of an attribute comes its value, the next attribute or nothing. -/
theorem stop_name {v : Option String} {x : List Char} (hx : ∀ c ∈ x.head?, c = ' ') :
    ∀ c ∈ (valueChars v ++ x).head?, isNameChar c = false := by
  intro c mem
  cases v with
  | none =>
    rw [hx c mem]
    decide
  | some value =>
    obtain rfl : '=' = c := by simpa [valueChars] using mem
    decide

theorem chars_unique {as bs : List WrittenAttribute} (ha : ∀ a ∈ as, a.Lawful)
    (hb : ∀ b ∈ bs, b.Lawful) (h : as.flatMap chars = bs.flatMap chars) : as = bs := by
  induction as generalizing bs with
  | nil =>
    cases bs with
    | nil => rfl
    | cons b bs => simp [chars] at h
  | cons a as ih =>
    cases bs with
    | nil => simp [chars] at h
    | cons b bs =>
      obtain ⟨lawfulA, laterA⟩ := List.forall_mem_cons.mp ha
      obtain ⟨lawfulB, laterB⟩ := List.forall_mem_cons.mp hb
      simp only [List.flatMap_cons, chars, List.cons_append, List.cons.injEq, true_and,
        List.append_assoc] at h
      obtain ⟨names, values⟩ := cut_at_stop (isNameChar_of_isName lawfulA.name)
        (isNameChar_of_isName lawfulB.name) (stop_name (head_chars as))
        (stop_name (head_chars bs)) h
      obtain ⟨value, rest⟩ := valueChars_unique lawfulA.value lawfulB.value (head_chars as)
        (head_chars bs) values
      rw [ih laterA laterB rest]
      obtain ⟨nameA, valueA⟩ := a
      obtain ⟨nameB, valueB⟩ := b
      obtain rfl := String.toList_inj.mp names
      obtain rfl := value
      rfl

end WrittenAttribute

theorem isTextChar_of_isNameChar {c : Char} (h : isNameChar c = true) : isTextChar c = true := by
  by_cases less : c = '<'
  · subst less
    contradiction
  by_cases greater : c = '>'
  · subst greater
    contradiction
  simp [isTextChar, less, greater]

theorem WrittenAttribute.isTextChar_of_mem_chars {a : WrittenAttribute} (h : a.Lawful) :
    ∀ c ∈ a.chars, isTextChar c = true := by
  intro c mem
  rw [chars, List.mem_cons, List.mem_append] at mem
  rcases mem with rfl | name | value
  · decide
  · exact isTextChar_of_isNameChar (isNameChar_of_isName h.name c name)
  · obtain ⟨_, _ | v⟩ := a
    · simp [valueChars] at value
    · simp only [valueChars, List.mem_cons, List.mem_append, List.not_mem_nil, or_false] at value
      rcases value with rfl | rfl | inside | rfl
      · decide
      · decide
      · have char := h.value v rfl c inside
        rw [isValueChar, Bool.and_eq_true] at char
        exact char.1
      · decide

namespace Tag

theorem isTextChar_of_mem_inner {tag : Tag} (h : tag.Lawful) :
    ∀ c ∈ tag.inner, isTextChar c = true := by
  have name : ∀ c ∈ tag.name.toList, isTextChar c = true := fun c mem =>
    isTextChar_of_isNameChar (isNameChar_of_isName h.name c mem)
  have attributes : ∀ c ∈ tag.attributes.flatMap WrittenAttribute.chars, isTextChar c = true := by
    intro c mem
    obtain ⟨a, inTag, inside⟩ := List.mem_flatMap.mp mem
    exact WrittenAttribute.isTextChar_of_mem_chars (h.attributes a inTag) c inside
  intro c mem
  cases tag with
  | opening =>
    rcases List.mem_append.mp mem with mem | mem
    · exact name c mem
    · exact attributes c mem
  | closing =>
    rcases List.mem_cons.mp mem with rfl | mem
    · decide
    · exact name c mem
  | selfClosing =>
    rcases List.mem_append.mp mem with mem | mem
    · exact name c mem
    rcases List.mem_append.mp mem with mem | mem
    · exact attributes c mem
    · simp only [List.mem_cons, List.not_mem_nil, or_false] at mem
      rcases mem with rfl | rfl <;> decide

/-- A name starts, and ends where an attribute or the end of the tag comes. -/
theorem name_unique {m n : String} {x y : List Char} (hm : isName m = true) (hn : isName n = true)
    (hx : ∀ c ∈ x.head?, c = ' ') (hy : ∀ c ∈ y.head?, c = ' ')
    (h : m.toList ++ x = n.toList ++ y) : m = n ∧ x = y := by
  have stop : ∀ {z : List Char}, (∀ c ∈ z.head?, c = ' ') →
      ∀ c ∈ z.head?, isNameChar c = false := by
    intro z blank c mem
    rw [blank c mem]
    decide
  obtain ⟨same, rest⟩ :=
    cut_at_stop (isNameChar_of_isName hm) (isNameChar_of_isName hn) (stop hx) (stop hy) h
  exact ⟨String.toList_inj.mp same, rest⟩

theorem slash_notMem {n : String} (h : isName n = true) {x : List Char} :
    (n.toList ++ x).head? ≠ some '/' := by
  intro first
  have chars := isNameChar_of_isName h
  rw [isName, Bool.and_eq_true] at h
  cases list : n.toList with
  | nil => simp [list] at h
  | cons c rest =>
    rw [list] at first chars
    obtain rfl : c = '/' := by simpa using first
    have bad := chars '/' List.mem_cons_self
    contradiction

theorem inner_unique {s t : Tag} (hs : s.Lawful) (ht : t.Lawful) (h : s.inner = t.inner) :
    s = t := by
  have blank : ∀ {attributes : List WrittenAttribute} {z : List Char},
      (∀ c ∈ z.head?, c = ' ') →
      ∀ c ∈ (attributes.flatMap WrittenAttribute.chars ++ z).head?, c = ' ' := by
    intro attributes z hz c mem
    cases attributes with
    | nil => exact hz c mem
    | cons a rest => simpa [WrittenAttribute.chars, eq_comm] using mem
  cases s with
  | opening m as =>
    have nameS : isName m = true := hs.name
    cases t with
    | opening n bs =>
      obtain ⟨rfl, rest⟩ := name_unique nameS ht.name (WrittenAttribute.head_chars as)
        (WrittenAttribute.head_chars bs) h
      exact congrArg (opening m)
        (WrittenAttribute.chars_unique hs.attributes ht.attributes rest)
    | closing n => exact absurd (congrArg List.head? h) (slash_notMem nameS)
    | selfClosing n bs =>
      obtain ⟨rfl, -⟩ := name_unique nameS ht.name (WrittenAttribute.head_chars as)
        (blank (by simp)) h
      have void : voidElements.contains m = true := ht.fits
      have notVoid := hs.fits
      rw [fits, void] at notVoid
      contradiction
  | closing m =>
    cases t with
    | opening n bs => exact absurd (congrArg List.head? h.symm) (slash_notMem ht.name)
    | closing n =>
      rw [inner, inner, List.cons.injEq] at h
      rw [String.toList_inj.mp h.2]
    | selfClosing n bs => exact absurd (congrArg List.head? h.symm) (slash_notMem ht.name)
  | selfClosing m as =>
    have nameS : isName m = true := hs.name
    cases t with
    | opening n bs =>
      obtain ⟨rfl, -⟩ := name_unique nameS ht.name (blank (by simp))
        (WrittenAttribute.head_chars bs) h
      have void : voidElements.contains m = true := hs.fits
      have notVoid := ht.fits
      rw [fits, void] at notVoid
      contradiction
    | closing n => exact absurd (congrArg List.head? h) (slash_notMem nameS)
    | selfClosing n bs =>
      obtain ⟨rfl, rest⟩ := name_unique nameS ht.name (blank (by simp)) (blank (by simp)) h
      exact congrArg (selfClosing m)
        (WrittenAttribute.chars_unique hs.attributes ht.attributes (List.append_cancel_right rest))

end Tag

namespace Markup

theorem restChars_cons (part : Tag × String) (rest : List (Tag × String)) :
    restChars (part :: rest) =
      '<' :: (part.1.inner ++ '>' :: (part.2.toList ++ restChars rest)) := by
  simp [restChars, Tag.chars]

theorem head_restChars (rest : List (Tag × String)) : ∀ c ∈ (restChars rest).head?, c = '<' := by
  intro c mem
  cases rest with
  | nil => simp [restChars] at mem
  | cons part rest => simpa [restChars, Tag.chars, eq_comm] using mem

/-- A run of text ends where the next tag starts. -/
theorem run_unique {r s : String} {x y : List (Tag × String)}
    (hr : ∀ c ∈ r.toList, isTextChar c = true) (hs : ∀ c ∈ s.toList, isTextChar c = true)
    (h : r.toList ++ restChars x = s.toList ++ restChars y) :
    r = s ∧ restChars x = restChars y := by
  have stop : ∀ z, ∀ c ∈ (restChars z).head?, isTextChar c = false := by
    intro z c mem
    rw [head_restChars z c mem]
    decide
  obtain ⟨same, rest⟩ := cut_at_stop hr hs (stop x) (stop y) h
  exact ⟨String.toList_inj.mp same, rest⟩

theorem restChars_unique {x y : List (Tag × String)} (hx : ∀ part ∈ x, part.1.Lawful)
    (hxr : ∀ part ∈ x, ∀ c ∈ part.2.toList, isTextChar c = true)
    (hy : ∀ part ∈ y, part.1.Lawful)
    (hyr : ∀ part ∈ y, ∀ c ∈ part.2.toList, isTextChar c = true)
    (h : restChars x = restChars y) : x = y := by
  induction x generalizing y with
  | nil =>
    cases y with
    | nil => rfl
    | cons part y => simp [restChars, Tag.chars] at h
  | cons p x ih =>
    cases y with
    | nil => simp [restChars, Tag.chars] at h
    | cons q y =>
      obtain ⟨tagP, tagsX⟩ := List.forall_mem_cons.mp hx
      obtain ⟨tagQ, tagsY⟩ := List.forall_mem_cons.mp hy
      obtain ⟨runP, runsX⟩ := List.forall_mem_cons.mp hxr
      obtain ⟨runQ, runsY⟩ := List.forall_mem_cons.mp hyr
      rw [restChars_cons, restChars_cons, List.cons.injEq] at h
      obtain ⟨inner, later⟩ := cut_at_stop (Tag.isTextChar_of_mem_inner tagP)
        (Tag.isTextChar_of_mem_inner tagQ) (by simp [isTextChar]) (by simp [isTextChar]) h.2
      obtain ⟨run, rest⟩ := run_unique runP runQ (List.cons.inj later).2
      rw [ih tagsX runsX tagsY runsY rest]
      rw [Prod.ext (Tag.inner_unique tagP tagQ inner) run]

/-- There is only one way to cut a text into runs and tags. -/
theorem Splits.unique {text : String} {m n : Markup} (hm : m.Splits text) (hn : n.Splits text) :
    m = n := by
  have whole : (Markup.write m).toList = (Markup.write n).toList := by
    rw [hm.write, hn.write]
  rw [Markup.write, Markup.write, String.toList_ofList, String.toList_ofList] at whole
  obtain ⟨lead, rest⟩ := run_unique hm.lawful.lead hn.lawful.lead whole
  have parts := restChars_unique hm.lawful.tags hm.lawful.runs hn.lawful.tags hn.lawful.runs rest
  obtain ⟨leadM, restM⟩ := m
  obtain ⟨leadN, restN⟩ := n
  obtain rfl := lead
  obtain rfl := parts
  rfl

end Markup

end Quire.Html
