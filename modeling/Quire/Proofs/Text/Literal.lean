import Mathlib.Data.List.Chain
import Quire.Proofs.Json.Tokens
import Quire.Proofs.Text.Escape

/-!
# Strings of a script

How a script reads a string between quotes of either kind. An escaped text is read back up to the
closing quote, and none of the signs stand in it that would end the string or the script.
-/

namespace Quire.Text

open Json (StringPart unit? joinParts partOf)

inductive Quotes where
  | single | double
  deriving DecidableEq, Repr

def Quotes.mark : Quotes → Char
  | single => '\''
  | double => '"'

/-- What a backslash and a character behind it stand for. A line break behind a backslash is left
out of the string, and letters without a meaning stand for themselves. Digits and incomplete numbers
are refused. -/
def escapedParts? : Char → Option (List StringPart)
  | 'n' => some [.char '\n']
  | 'r' => some [.char '\r']
  | 't' => some [.char '\t']
  | 'b' => some [.char '\x08']
  | 'f' => some [.char '\x0c']
  | 'v' => some [.char '\x0b']
  | '\n' => some []
  | '\r' => some []
  | '\u2028' => some []
  | '\u2029' => some []
  | 'u' => none
  | 'x' => none
  | c => if isDigit c then none else some [.char c]

/-- The parts of a string up to its closing quote, after the reversed ones in `parts`. A line break
without a backslash is refused. -/
def readStringParts (quotes : Quotes) (parts : List StringPart) :
    List Char → Option (List StringPart × List Char)
  | [] => none
  | '\\' :: 'u' :: a :: b :: c :: d :: rest =>
    match unit? a b c d with
    | some unit => readStringParts quotes (.code unit :: parts) rest
    | none => none
  | '\\' :: 'x' :: a :: b :: rest =>
    match unit? '0' '0' a b with
    | some unit => readStringParts quotes (.code unit :: parts) rest
    | none => none
  | '\\' :: '\r' :: '\n' :: rest => readStringParts quotes parts rest
  | '\\' :: e :: rest =>
    match escapedParts? e with
    | some more => readStringParts quotes (more ++ parts) rest
    | none => none
  | c :: rest =>
    if c = quotes.mark then some (parts.reverse, rest)
    else if c = '\\' || c = '\n' || c = '\r' then none
    else readStringParts quotes (.char c :: parts) rest

/-- A string behind its opening quote, and what comes behind the closing one. -/
def readLiteral (quotes : Quotes) (cs : List Char) : Option (String × List Char) := do
  let (parts, rest) ← readStringParts quotes [] cs
  let chars ← joinParts none [] parts
  pure (String.ofList chars, rest)

/-- The characters of a text that no backslash escapes, without the backslashes that escape. -/
def unescaped : List Char → List Char
  | '\\' :: _ :: rest => unescaped rest
  | c :: rest => c :: unescaped rest
  | [] => []

theorem escapeScript_toList (s : String) : (escapeScript s).toList = s.toList.flatMap scriptChar :=
  String.toList_ofList

/-- A character has a short escape, is a control character written with its number, or stands for
itself. -/
theorem scriptChar_cases (c : Char) :
    (∃ e, scriptChar c = ['\\', e] ∧ partOf c = .char c ∧ e ≠ 'u' ∧ e ≠ 'x' ∧ e ≠ '\r' ∧
      32 ≤ e.toNat ∧ escapedParts? e = some [.char c]) ∨
    (c.toNat < 32 ∧ partOf c = .code c.toNat ∧ scriptChar c =
      ['\\', 'u', '0', '0', hexDigit (c.toNat / 16), hexDigit (c.toNat % 16)]) ∨
    (scriptChar c = [c] ∧ partOf c = .char c ∧ 32 ≤ c.toNat ∧
      c ≠ '"' ∧ c ≠ '\'' ∧ c ≠ '\\' ∧ c ≠ '/') := by
  unfold scriptChar
  split
  case h_10 double single backslash slash newline return_ tab back feed =>
    by_cases control : c.toNat < 32
    · have part : partOf c = .code c.toNat := by simp [partOf, Json.escapeChar, *]
      rw [if_pos control]
      exact .inr (.inl ⟨control, part, rfl⟩)
    · have part : partOf c = .char c := by simp [partOf, Json.escapeChar, *]
      rw [if_neg control]
      exact .inr (.inr ⟨rfl, part, Nat.le_of_not_lt control, double, single, backslash, slash⟩)
  all_goals exact .inl ⟨_, rfl, rfl, by decide, by decide, by decide, by decide, rfl⟩

/-- The digits of a number are none of the signs that are escaped. -/
theorem hexDigit_plain : ∀ n < 16, hexDigit n ≠ '"' ∧ hexDigit n ≠ '\'' ∧ hexDigit n ≠ '\\' ∧
    hexDigit n ≠ '/' ∧ 32 ≤ (hexDigit n).toNat := by
  decide

section Reading

/-- Below 32 a number of two hexadecimal digits gives the unit back. -/
theorem unit?_hexDigits :
    ∀ n < 32, unit? '0' '0' (hexDigit (n / 16)) (hexDigit (n % 16)) = some n := by
  decide

theorem readStringParts_scriptChar (quotes : Quotes) (c : Char) (parts : List StringPart)
    (rest : List Char) :
    readStringParts quotes parts (scriptChar c ++ rest) =
      readStringParts quotes (partOf c :: parts) rest := by
  rcases scriptChar_cases c with ⟨e, escape, part, notUnit, notByte, notReturn, -, back⟩ |
    ⟨control, part, escape⟩ | ⟨escape, part, printable, double, single, backslash, -⟩
  · rw [escape, part]
    simp [readStringParts, notUnit, notByte, notReturn, back]
  · rw [escape, part]
    simp [readStringParts, unit?_hexDigits _ control]
  · have noBreak : c ≠ '\n' ∧ c ≠ '\r' := by
      constructor <;>
        · rintro rfl
          contradiction
    have inside : c ≠ quotes.mark := by
      cases quotes with
      | single => exact single
      | double => exact double
    rw [escape, part]
    simp [readStringParts, backslash, noBreak, inside]

theorem readStringParts_escaped (quotes : Quotes) (cs : List Char) (parts : List StringPart)
    (rest : List Char) :
    readStringParts quotes parts (cs.flatMap scriptChar ++ quotes.mark :: rest) =
      some (parts.reverse ++ cs.map partOf, rest) := by
  induction cs generalizing parts with
  | nil =>
    have closes : quotes.mark ≠ '\\' := by cases quotes <;> decide
    rw [List.flatMap_nil, List.nil_append, List.map_nil, List.append_nil]
    simp [readStringParts, closes]
  | cons c cs ih =>
    rw [List.flatMap_cons, List.append_assoc, readStringParts_scriptChar, ih, List.reverse_cons,
      List.map_cons, List.append_assoc, List.singleton_append]

/-- A string ends behind its escaped text, whatever comes there. -/
theorem readLiteral_escapeScript (quotes : Quotes) (s : String) (rest : List Char) :
    readLiteral quotes ((escapeScript s).toList ++ quotes.mark :: rest) = some (s, rest) := by
  rw [escapeScript_toList]
  simp [readLiteral, readStringParts_escaped, Json.joinParts_map_partOf]

end Reading

section Signs

theorem unescaped_of_ne {c : Char} (h : c ≠ '\\') (rest : List Char) :
    unescaped (c :: rest) = c :: unescaped rest := by
  rw [unescaped]
  intro _ _ backslash
  exact absurd backslash h

/-- Of an escape only the number is left, and of other characters they themselves. -/
theorem mem_unescaped_scriptChar {c d : Char} {rest : List Char}
    (h : d ∈ unescaped (scriptChar c ++ rest)) :
    d ≠ '"' ∧ d ≠ '\'' ∨ d ∈ unescaped rest := by
  rcases scriptChar_cases c with ⟨e, escape, -⟩ | ⟨control, -, escape⟩ |
    ⟨escape, -, -, double, single, backslash, -⟩
  · rw [escape] at h
    exact .inr h
  · have high := hexDigit_plain (c.toNat / 16) (by omega)
    have low := hexDigit_plain (c.toNat % 16) (by omega)
    have digits : unescaped (scriptChar c ++ rest) =
        '0' :: '0' :: hexDigit (c.toNat / 16) :: hexDigit (c.toNat % 16) :: unescaped rest := by
      rw [escape, List.cons_append, List.cons_append, unescaped]
      simp only [List.cons_append, List.nil_append]
      rw [unescaped_of_ne (by decide), unescaped_of_ne (by decide), unescaped_of_ne high.2.2.1,
        unescaped_of_ne low.2.2.1]
    rw [digits] at h
    simp only [List.mem_cons] at h
    rcases h with rfl | rfl | rfl | rfl | h
    · exact .inl (by decide)
    · exact .inl (by decide)
    · exact .inl ⟨high.1, high.2.1⟩
    · exact .inl ⟨low.1, low.2.1⟩
    · exact .inr h
  · rw [escape, List.singleton_append, unescaped_of_ne backslash] at h
    rcases List.mem_cons.mp h with rfl | h
    · exact .inl ⟨double, single⟩
    · exact .inr h

/-- Every quote is escaped. -/
theorem mem_unescaped_escapeScript {s : String} {c : Char}
    (h : c ∈ unescaped (escapeScript s).toList) : c ≠ '"' ∧ c ≠ '\'' := by
  rw [escapeScript_toList] at h
  generalize s.toList = cs at h
  induction cs with
  | nil => contradiction
  | cons d cs ih =>
    rcases mem_unescaped_scriptChar h with plain | h
    · exact plain
    · exact ih h

/-- No control character is left. -/
theorem mem_escapeScript {s : String} {c : Char} (h : c ∈ (escapeScript s).toList) :
    32 ≤ c.toNat := by
  rw [escapeScript_toList, List.mem_flatMap] at h
  obtain ⟨source, -, mem⟩ := h
  rcases scriptChar_cases source with ⟨e, escape, -, -, -, -, printable, -⟩ |
    ⟨control, -, escape⟩ | ⟨escape, -, printable, -⟩
  · rw [escape] at mem
    simp only [List.mem_cons, List.not_mem_nil, or_false] at mem
    rcases mem with rfl | rfl
    · decide
    · exact printable
  · have high := hexDigit_plain (source.toNat / 16) (by omega)
    have low := hexDigit_plain (source.toNat % 16) (by omega)
    rw [escape] at mem
    simp only [List.mem_cons, List.not_mem_nil, or_false] at mem
    rcases mem with rfl | rfl | rfl | rfl | rfl | rfl
    · decide
    · decide
    · decide
    · decide
    · exact high.2.2.2.2
    · exact low.2.2.2.2
  · rw [escape] at mem
    obtain rfl := List.mem_singleton.mp mem
    exact printable

def SlashesEscaped (cs : List Char) : Prop :=
  (cs.IsChain fun a b => b = '/' → a = '\\') ∧ cs.head? ≠ some '/'

namespace SlashesEscaped

theorem append {a b : List Char} (ha : SlashesEscaped a) (hb : SlashesEscaped b) :
    SlashesEscaped (a ++ b) := by
  constructor
  · refine List.isChain_append.mpr ⟨ha.1, hb.1, fun x _ y first slash => ?_⟩
    rw [slash] at first
    exact absurd first hb.2
  · cases a with
    | nil => exact hb.2
    | cons c a => exact ha.2

theorem of_notMem {cs : List Char} (h : '/' ∉ cs) : SlashesEscaped cs := by
  constructor
  · apply List.isChain_iff_forall_rel_of_append_cons_cons.mpr
    rintro _ _ front back rfl rfl
    exact absurd (List.mem_append_right front (by simp)) h
  · intro first
    exact h (List.mem_of_mem_head? first)

theorem scriptChar (c : Char) : SlashesEscaped (scriptChar c) := by
  unfold Text.scriptChar
  split
  case h_10 slash _ _ _ _ _ =>
    split
    · rename_i control
      have first := hexDigit_plain (c.toNat / 16) (by omega)
      have second := hexDigit_plain (c.toNat % 16) (by omega)
      simp [SlashesEscaped, first, second]
    · simpa [SlashesEscaped] using slash
  all_goals simp [SlashesEscaped]

theorem escapeScript (s : String) : SlashesEscaped (escapeScript s).toList := by
  rw [Text.escapeScript, String.toList_ofList]
  generalize s.toList = cs
  induction cs with
  | nil => simp [SlashesEscaped]
  | cons c rest ih =>
    rw [List.flatMap_cons]
    exact (scriptChar c).append ih

/-- A text with a bare slash does not stand in one whose slashes are escaped. -/
theorem absent {cs pattern : List Char} {c : Char} (h : SlashesEscaped cs)
    (slash : [c, '/'] <:+: pattern) (bare : c ≠ '\\') : ¬ pattern <:+: cs := by
  intro k
  obtain ⟨before, after, whole⟩ := slash.trans k
  have chain := h.1
  rw [← whole, List.append_assoc] at chain
  exact bare ((List.isChain_cons_cons.mp chain.right_of_append).1 rfl)

end SlashesEscaped

end Signs

/-- Nothing is lost in an escape, and nothing in it ends what it stands in. Escaped markup has no
sign of markup but ampersands that start an entity, and is read back as often as it was escaped. An
escaped string has no bare quote, no control character and no end of a script, and between quotes of
either kind it is read back up to the closing one. -/
theorem escapes_lossless (s : String) :
    (∀ c ∈ (escapeMarkup s).toList, c ≠ '<' ∧ c ≠ '>' ∧ c ≠ '"' ∧ c ≠ '\'') ∧
    (∀ behind, '&' :: behind <:+ (escapeMarkup s).toList →
      ∃ entity ∈ entities, entity.toList <+: '&' :: behind) ∧
    unescapeMarkup (escapeMarkup s).toList = s.toList ∧
    unescapeMarkup (unescapeMarkup (escapeMarkup (escapeMarkup s)).toList) = s.toList ∧
    (∀ c ∈ unescaped (escapeScript s).toList, c ≠ '"' ∧ c ≠ '\'') ∧
    (∀ c ∈ (escapeScript s).toList, 32 ≤ c.toNat) ∧
    ¬ ['<', '/'] <:+: (escapeScript s).toList ∧
    ∀ quotes rest, readLiteral quotes ((escapeScript s).toList ++ quotes.mark :: rest) =
      some (s, rest) := by
  refine ⟨fun _ => mem_escapeMarkup, fun _ => entity_of_ampersand, unescapeMarkup_escapeMarkup s,
    ?_, fun _ => mem_unescaped_escapeScript, fun _ => mem_escapeScript, ?_,
    fun quotes rest => readLiteral_escapeScript quotes s rest⟩
  · rw [unescapeMarkup_escapeMarkup, unescapeMarkup_escapeMarkup]
  · exact (SlashesEscaped.escapeScript s).absent (List.infix_refl _) (by decide)

end Quire.Text
