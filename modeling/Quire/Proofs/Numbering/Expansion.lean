import Mathlib.Data.List.DropRight
import Quire.Numbering.Format

/-!
# Formats written out

A format text with its symbols replaced by counters, one after the other. What is written is the
expansion of the shortest prefix with as many symbols as there are counters for, so all but the
literals behind the last symbol of the text.
-/

namespace Quire

namespace NumberingFormat

def isSymbol (c : Char) : Bool := (CounterStyle.ofSymbol? c).isSome

def symbolCount (cs : List Char) : Nat := cs.countP isSymbol

/-- What a character shows behind as many symbols as `turn` says: a symbol the counter whose turn
it is, and any other character itself. -/
def shown (counters : List Nat) (turn : Nat) (c : Char) : List Char :=
  match CounterStyle.ofSymbol? c with
  | some style => (counters[turn]?.map style.text).getD []
  | none => [c]

/-- The text with its `n`-th symbol replaced by the `n`-th counter. -/
def expansion (cs : List Char) (counters : List Nat) : List Char :=
  (cs.mapIdx fun i c => shown counters (symbolCount (cs.take i)) c).flatten

/-- The front of a text that has just so many symbols and ends as soon as it has them. -/
structure IsShortestFront (count : Nat) (front cs : List Char) : Prop where
  starts : front <+: cs
  holds : symbolCount front = count
  shortest : ∀ other, other <+: cs → symbolCount other = count → front.length ≤ other.length

def upTo : Nat → List Char → List Char
  | 0, _ => []
  | _ + 1, [] => []
  | n + 1, c :: cs => c :: upTo (if isSymbol c then n else n + 1) cs

section Count

variable {c : Char} {cs : List Char}

theorem symbolCount_cons_symbol (symbol : isSymbol c = true) :
    symbolCount (c :: cs) = symbolCount cs + 1 :=
  List.countP_cons_of_pos symbol

theorem symbolCount_cons_literal (literal : isSymbol c = false) :
    symbolCount (c :: cs) = symbolCount cs :=
  List.countP_cons_of_neg (by simp [literal])

theorem symbolCount_append (a b : List Char) :
    symbolCount (a ++ b) = symbolCount a + symbolCount b :=
  List.countP_append

theorem isSymbol_of_mem (none : symbolCount cs = 0) (mem : c ∈ cs) : isSymbol c = false := by
  have stays := List.countP_eq_zero.mp none c mem
  rwa [Bool.not_eq_true] at stays

end Count

section Expansion

variable {c : Char} {cs : List Char} {counters : List Nat}

theorem expansion_nil : expansion [] counters = [] := rfl

theorem expansion_cons : expansion (c :: cs) counters =
    shown counters 0 c ++ expansion cs (counters.drop (symbolCount [c])) := by
  have later : (fun i d => shown counters (symbolCount ((c :: cs).take (i + 1))) d) =
      fun i d => shown (counters.drop (symbolCount [c])) (symbolCount (cs.take i)) d := by
    funext i d
    have front : symbolCount ((c :: cs).take (i + 1)) = symbolCount [c] + symbolCount (cs.take i) :=
      symbolCount_append [c] (cs.take i)
    simp only [shown, front, List.getElem?_drop]
  rw [expansion, List.mapIdx_cons, List.flatten_cons, later]
  rfl

theorem expansion_cons_literal (literal : isSymbol c = false) :
    expansion (c :: cs) counters = c :: expansion cs counters := by
  have none : symbolCount [c] = 0 := symbolCount_cons_literal literal
  have itself : shown counters 0 c = [c] := by
    rw [isSymbol, Option.isSome_eq_false_iff, Option.isNone_iff_eq_none] at literal
    simp only [shown, literal]
  rw [expansion_cons, none, itself, List.drop_zero, List.singleton_append]

theorem expansion_cons_symbol {style : CounterStyle} {value : Nat}
    (symbol : CounterStyle.ofSymbol? c = some style) :
    expansion (c :: cs) (value :: counters) = style.text value ++ expansion cs counters := by
  have one : symbolCount [c] = 1 := symbolCount_cons_symbol (by rw [isSymbol, symbol]; rfl)
  have first : shown (value :: counters) 0 c = style.text value := by
    simp only [shown, symbol, List.getElem?_cons_zero, Option.map_some, Option.getD_some]
  rw [expansion_cons, one, first, List.drop_one, List.tail_cons]

/-- Literals are kept in place. -/
theorem expansion_literals_append {literals : List Char} (none : symbolCount literals = 0) :
    expansion (literals ++ cs) counters = literals ++ expansion cs counters := by
  induction literals with
  | nil => rfl
  | cons d rest ih =>
    have literal : isSymbol d = false := isSymbol_of_mem none List.mem_cons_self
    rw [symbolCount_cons_literal literal] at none
    rw [List.cons_append, expansion_cons_literal literal, ih none, List.cons_append]

theorem expansion_append_literals {literals : List Char} (none : symbolCount literals = 0) :
    expansion (cs ++ literals) counters = expansion cs counters ++ literals := by
  induction cs generalizing counters with
  | nil =>
    have whole : expansion (literals ++ []) counters = literals ++ expansion [] counters :=
      expansion_literals_append none
    rwa [List.append_nil, expansion_nil, List.append_nil] at whole
  | cons d rest ih =>
    rw [List.cons_append, expansion_cons, expansion_cons, ih, List.append_assoc]

end Expansion

section Front

theorem upTo_literals_append {literals : List Char} (none : symbolCount literals = 0) (n : Nat)
    (cs : List Char) : upTo (n + 1) (literals ++ cs) = literals ++ upTo (n + 1) cs := by
  induction literals with
  | nil => rfl
  | cons d rest ih =>
    have literal : isSymbol d = false := isSymbol_of_mem none List.mem_cons_self
    rw [symbolCount_cons_literal literal] at none
    rw [List.cons_append, upTo, literal, if_neg Bool.false_ne_true, ih none, List.cons_append]

theorem isShortestFront_upTo {n : Nat} {cs : List Char} (enough : n ≤ symbolCount cs) :
    IsShortestFront n (upTo n cs) cs := by
  induction cs generalizing n with
  | nil =>
    obtain rfl : n = 0 := Nat.le_zero.mp enough
    exact ⟨List.nil_prefix, rfl, fun _ _ _ => Nat.zero_le _⟩
  | cons c cs ih =>
    cases n with
    | zero => exact ⟨List.nil_prefix, rfl, fun _ _ _ => Nat.zero_le _⟩
    | succ n =>
      -- what is left to find behind the first character
      have step : ∀ m, m ≤ symbolCount cs →
          (∀ front, symbolCount (c :: front) = n + 1 ↔ symbolCount front = m) →
          IsShortestFront (n + 1) (c :: upTo m cs) (c :: cs) := by
        intro m left same
        obtain ⟨starts, holds, shortest⟩ := ih left
        refine ⟨List.cons_prefix_cons.mpr ⟨rfl, starts⟩, (same _).mpr holds, ?_⟩
        intro other front count
        cases other with
        | nil =>
          change 0 = n + 1 at count
          omega
        | cons d other =>
          obtain ⟨rfl, behind⟩ := List.cons_prefix_cons.mp front
          have := shortest other behind ((same other).mp count)
          simp only [List.length_cons]
          omega
      cases symbol : isSymbol c with
      | true =>
        rw [symbolCount_cons_symbol symbol] at enough
        rw [upTo, symbol, if_pos rfl]
        apply step n (by omega)
        intro front
        rw [symbolCount_cons_symbol symbol]
        omega
      | false =>
        rw [symbolCount_cons_literal symbol] at enough
        rw [upTo, symbol, if_neg Bool.false_ne_true]
        apply step (n + 1) enough
        intro front
        rw [symbolCount_cons_literal symbol]

theorem upTo_symbol {s : Char} (symbol : isSymbol s = true) (front rest : List Char) :
    upTo (symbolCount front + 1) (front ++ s :: rest) = front ++ [s] := by
  induction front with
  | nil => rw [List.nil_append, upTo, symbol, if_pos rfl, symbolCount, List.countP_nil, upTo]; rfl
  | cons d front ih =>
    cases kind : isSymbol d with
    | true =>
      rw [symbolCount_cons_symbol kind, List.cons_append, upTo, kind, if_pos rfl, ih,
        List.cons_append]
    | false =>
      rw [symbolCount_cons_literal kind, List.cons_append, upTo, kind,
        if_neg Bool.false_ne_true, ih, List.cons_append]

/-- The literals behind the last symbol of a text. -/
def trailing (cs : List Char) : List Char := cs.rtakeWhile fun c => !isSymbol c

theorem symbolCount_trailing (cs : List Char) : symbolCount (trailing cs) = 0 := by
  apply List.countP_eq_zero.mpr
  intro c mem
  have literal := List.mem_rtakeWhile_imp mem
  simpa using literal

theorem upTo_append_trailing {cs : List Char} (present : 0 < symbolCount cs) :
    upTo (symbolCount cs) cs ++ trailing cs = cs := by
  let front := cs.rdropWhile fun c => !isSymbol c
  have whole : front ++ trailing cs = cs := List.rdropWhile_append_rtakeWhile
  have count : symbolCount front = symbolCount cs := by
    have sum := symbolCount_append front (trailing cs)
    rw [whole, symbolCount_trailing] at sum
    omega
  have filled : front ≠ [] := by
    intro empty
    rw [← count, empty] at present
    contradiction
  have last : isSymbol (front.getLast filled) = true := by
    have stops := List.rdropWhile_last_not (fun c => !isSymbol c) cs filled
    simpa using stops
  have split : front.dropLast ++ [front.getLast filled] = front :=
    List.dropLast_append_getLast filled
  have found := upTo_symbol last front.dropLast (trailing cs)
  have counted : symbolCount front = symbolCount front.dropLast + 1 := by
    conv_lhs => rw [← split]
    rw [symbolCount_append, symbolCount_cons_symbol last]
    rfl
  rw [List.append_cons, split, whole, ← counted, count] at found
  rw [found, whole]

end Front

theorem isCounter_ofChar (c : Char) : (FormatSymbol.ofChar c).isCounter = isSymbol c := by
  rw [FormatSymbol.ofChar, isSymbol]
  cases CounterStyle.ofSymbol? c <;> rfl

/-- A format has the symbols of its text, and at least one of them is a counter. -/
theorem symbols_of_read? {text : String} {format : NumberingFormat}
    (accepted : read? text = some format) :
    format.symbols = text.toList.map FormatSymbol.ofChar ∧ 0 < symbolCount text.toList := by
  rw [read?] at accepted
  split at accepted
  · rename_i counters
    obtain rfl := Option.some.inj accepted
    refine ⟨rfl, List.countP_pos_iff.mpr ?_⟩
    obtain ⟨symbol, mem, counter⟩ := List.any_eq_true.mp counters
    obtain ⟨c, inText, rfl⟩ := List.mem_map.mp mem
    rw [isCounter_ofChar] at counter
    exact ⟨c, inText, counter⟩
  · contradiction

/-- Literals in front of a symbol wait for it, and those behind the last counter are dropped. -/
theorem formatSymbols_eq_expansion {pending : List Char} (none : symbolCount pending = 0)
    (cs : List Char) (values : List Nat) :
    formatSymbols pending (cs.map FormatSymbol.ofChar) values =
      expansion (upTo (min values.length (symbolCount cs)) (pending ++ cs)) values := by
  induction cs generalizing pending values with
  | nil => rw [List.map_nil, formatSymbols, symbolCount, List.countP_nil, Nat.min_zero, upTo]; rfl
  | cons c cs ih =>
    cases found : CounterStyle.ofSymbol? c with
    | none =>
      have literal : isSymbol c = false := by rw [isSymbol, found]; rfl
      have waits : symbolCount (pending ++ [c]) = 0 := by
        rw [symbolCount_append, none, symbolCount_cons_literal literal]
        rfl
      have here : FormatSymbol.ofChar c = .literal c := by rw [FormatSymbol.ofChar, found]
      rw [List.map_cons, here, formatSymbols, ih waits, symbolCount_cons_literal literal,
        List.append_assoc, List.singleton_append]
    | some style =>
      have symbol : isSymbol c = true := by rw [isSymbol, found]; rfl
      have here : FormatSymbol.ofChar c = .counter style := by rw [FormatSymbol.ofChar, found]
      rw [List.map_cons, here, symbolCount_cons_symbol symbol]
      cases values with
      | nil => rw [formatSymbols, List.length_nil, Nat.zero_min, upTo, expansion_nil]
      | cons value values =>
        rw [formatSymbols, ih (rfl : symbolCount [] = 0), List.length_cons, Nat.add_min_add_right,
          upTo_literals_append none, upTo, symbol, if_pos rfl, expansion_literals_append none,
          expansion_cons_symbol found, List.nil_append, List.append_assoc]

/-- A format written out. With a counter for each symbol the text is written with every symbol
replaced and every literal kept in place, but for the literals behind its last symbol. With fewer
counters it is written as far as to the last symbol that gets one. -/
theorem write_expands {text : String} {format : NumberingFormat}
    (accepted : read? text = some format) (counters : List Nat) :
    (symbolCount text.toList ≤ counters.length →
      (format.write counters).toList ++ trailing text.toList = expansion text.toList counters) ∧
    (counters.length < symbolCount text.toList →
      ∃ front, IsShortestFront counters.length front text.toList ∧
        (format.write counters).toList = expansion front counters) := by
  obtain ⟨symbols, present⟩ := symbols_of_read? accepted
  have written : (format.write counters).toList =
      expansion (upTo (min counters.length (symbolCount text.toList)) text.toList) counters := by
    rw [write, String.toList_ofList, symbols]
    exact formatSymbols_eq_expansion rfl text.toList counters
  constructor
  · intro enough
    rw [written, Nat.min_eq_right enough, ← expansion_append_literals (symbolCount_trailing _),
      upTo_append_trailing present]
  · intro short
    refine ⟨upTo counters.length text.toList, isShortestFront_upTo (Nat.le_of_lt short), ?_⟩
    rw [written, Nat.min_eq_left (Nat.le_of_lt short)]

/-- A format with literals on both sides, with a counter too many and with one too few. -/
theorem write_expands_letters :
    ∃ format, read? "(A-i)" = some format ∧
      (format.write [28, 4, 9]).toList ++ [')'] = "(AB-iv)".toList ∧
      ∃ front, IsShortestFront 1 front "(A-i)".toList ∧
        (format.write [28]).toList = expansion front [28] := by
  have chars : "(A-i)".toList = ['(', 'A', '-', 'i', ')'] := String.toList_ofList
  have two : symbolCount "(A-i)".toList = 2 := by
    rw [chars]
    decide
  cases accepted : read? "(A-i)" with
  | none => exact absurd accepted (by decide +kernel)
  | some format =>
    obtain ⟨all, -⟩ := write_expands accepted [28, 4, 9]
    obtain ⟨-, first⟩ := write_expands accepted [28]
    have whole : expansion "(A-i)".toList [28, 4, 9] = "(AB-iv)".toList := by decide +kernel
    have last : trailing "(A-i)".toList = [')'] := by decide +kernel
    rw [two, whole, last] at all
    rw [two] at first
    exact ⟨format, rfl, all (by decide), first (by decide)⟩

/-- A format that ends in a literal loses it even when there is a counter for each symbol. -/
theorem trailing_literal_lost :
    ∃ format, read? "1." = some format ∧ symbolCount "1.".toList ≤ [2].length ∧
      (format.write [2]).toList = ['2'] ∧ expansion "1.".toList [2] = ['2', '.'] := by
  refine ⟨⟨[.counter .decimal, .literal '.'], by decide⟩, ?_⟩
  decide +kernel

end NumberingFormat
end Quire
