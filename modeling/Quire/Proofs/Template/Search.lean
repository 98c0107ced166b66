import Quire.Template.Process

/-!
# Where a pattern cannot start

A text is quiet for a pattern when no occurrence of the pattern starts inside it, whatever comes
behind it. A search passes over quiet texts, and markers are quiet for other markers.
-/

namespace Quire.Text

/-- No occurrence of a pattern starts inside a text, whatever comes behind it. -/
inductive Quiet (pattern : List Char) : List Char → Prop where
  | nil : Quiet pattern []
  | cons {c : Char} {cs : List Char} (here : ∀ rest, ¬ pattern <+: c :: (cs ++ rest))
    (later : Quiet pattern cs) : Quiet pattern (c :: cs)

theorem Quiet.start {pattern cs : List Char} {c : Char} (h : Quiet pattern (c :: cs))
    (rest : List Char) : ¬ pattern <+: c :: (cs ++ rest) := by
  cases h with
  | cons here later => exact here rest

theorem Quiet.tail {pattern cs : List Char} {c : Char} (h : Quiet pattern (c :: cs)) :
    Quiet pattern cs := by
  cases h with
  | cons here later => exact later

theorem Quiet.append {pattern a b : List Char} (ha : Quiet pattern a) (hb : Quiet pattern b) :
    Quiet pattern (a ++ b) := by
  induction ha with
  | nil => exact hb
  | cons here _ ih =>
    refine .cons (fun rest k => here (b ++ rest) ?_) ih
    rw [← List.append_assoc]
    exact k

/-- A longer pattern occurs in fewer places. -/
theorem Quiet.of_longer {pattern cs : List Char} (h : Quiet pattern cs) (more : List Char) :
    Quiet (pattern ++ more) cs := by
  induction h with
  | nil => exact .nil
  | cons here _ ih => exact .cons (fun rest k => here rest ((List.prefix_append _ _).trans k)) ih

/-- Nothing is lost at the first occurrence. -/
theorem append_of_breakOn {pattern cs before after : List Char}
    (h : breakOn pattern cs = some (before, after)) : before ++ (pattern ++ after) = cs := by
  induction cs generalizing before with
  | nil => cases pattern <;> simp_all [breakOn]
  | cons c rest ih =>
    rw [breakOn] at h
    split at h
    · rename_i front
      obtain ⟨behind, eq⟩ := List.isPrefixOf_iff_prefix.mp front
      rw [← eq, List.drop_left] at h
      obtain ⟨rfl, rfl⟩ := Prod.mk.inj (Option.some.inj h)
      exact eq
    · obtain ⟨⟨b, a⟩, found, eq⟩ := Option.map_eq_some_iff.mp h
      obtain ⟨rfl, rfl⟩ := Prod.mk.inj eq
      rw [List.cons_append, ih found]

theorem breakOn_append_self (pattern rest : List Char) :
    breakOn pattern (pattern ++ rest) = some ([], rest) := by
  have front : pattern.isPrefixOf (pattern ++ rest) = true :=
    List.isPrefixOf_iff_prefix.mpr (List.prefix_append _ _)
  cases h : pattern ++ rest with
  | nil =>
    obtain ⟨rfl, rfl⟩ := List.append_eq_nil_iff.mp h
    rfl
  | cons c cs =>
    rw [h] at front
    rw [breakOn, if_pos front, ← h, List.drop_left]

theorem breakOn_quiet_append {pattern cs : List Char} (h : Quiet pattern cs) (rest : List Char) :
    breakOn pattern (cs ++ rest) =
      (breakOn pattern rest).map fun (before, after) => (cs ++ before, after) := by
  induction cs with
  | nil => simp
  | cons c cs ih =>
    have front : ¬ pattern.isPrefixOf (c :: (cs ++ rest)) = true := fun k =>
      h.start rest (List.isPrefixOf_iff_prefix.mp k)
    rw [List.cons_append, breakOn, if_neg front, ih h.tail, Option.map_map]
    rfl

theorem breakOn_quiet {pattern cs : List Char} (h : Quiet pattern cs) (ne : pattern ≠ []) :
    breakOn pattern cs = none := by
  have eq := breakOn_quiet_append h []
  rwa [List.append_nil, breakOn, if_neg (by simpa using ne)] at eq

/-- A search ends at the first occurrence behind a quiet text. -/
theorem breakOn_at {pattern cs : List Char} (h : Quiet pattern cs) (rest : List Char) :
    breakOn pattern (cs ++ (pattern ++ rest)) = some (cs, rest) := by
  rw [breakOn_quiet_append h, breakOn_append_self]
  simp

theorem quiet_of_notMem {pattern cs : List Char} {c : Char} (h : c ∉ cs) :
    Quiet (c :: pattern) cs := by
  induction cs with
  | nil => exact .nil
  | cons d cs ih =>
    refine .cons (fun rest k => h ?_) (ih fun k => h (List.mem_cons_of_mem _ k))
    rw [(List.cons_prefix_cons.mp k).1]
    exact List.mem_cons_self

theorem Quiet.absent {pattern cs : List Char} (h : Quiet pattern cs) (ne : pattern ≠ []) :
    ¬ pattern <:+: cs := by
  induction cs with
  | nil =>
    intro k
    exact ne (List.infix_nil.mp k)
  | cons c cs ih =>
    intro k
    rcases List.infix_cons_iff.mp k with front | k
    · have start := h.start []
      rw [List.append_nil] at start
      exact start front
    · exact ih h.tail k

/-- Before a character that is not in the pattern a text is quiet if the pattern is not in it. -/
theorem quiet_of_separator {pattern cs : List Char} {c : Char} (free : ¬ pattern <:+: cs)
    (hc : c ∉ pattern) : Quiet pattern (cs ++ [c]) := by
  induction cs with
  | nil =>
    refine .cons (fun rest k => ?_) .nil
    cases pattern with
    | nil => exact free List.nil_infix
    | cons d pattern =>
      rw [(List.cons_prefix_cons.mp k).1] at hc
      exact hc List.mem_cons_self
  | cons d cs ih =>
    refine .cons (fun rest k => ?_) (ih fun k => free (k.trans (List.suffix_cons d cs).isInfix))
    have here : d :: (cs ++ [c]) <+: d :: (cs ++ [c] ++ rest) :=
      List.cons_prefix_cons.mpr ⟨rfl, List.prefix_append _ _⟩
    rcases List.prefix_or_prefix_of_prefix k here with k | k
    · have k : pattern <+: (d :: cs) ++ [c] := k
      rcases List.prefix_concat_iff.mp k with eq | k
      · rw [eq] at hc
        exact hc (by simp)
      · exact free k.isInfix
    · exact hc (k.subset (by simp))

/-- Whether one of two texts starts with the other. -/
def meets : List Char → List Char → Bool
  | [], _ => true
  | _, [] => true
  | a :: as, b :: bs => a == b && meets as bs

def isQuiet (pattern : List Char) : List Char → Bool
  | [] => true
  | c :: cs => !meets pattern (c :: cs) && isQuiet pattern cs

theorem meets_of_prefix {pattern cs rest : List Char} (h : pattern <+: cs ++ rest) :
    meets pattern cs = true := by
  induction pattern generalizing cs with
  | nil => rfl
  | cons a as ih =>
    cases cs with
    | nil => rfl
    | cons b bs =>
      obtain ⟨rfl, k⟩ := List.cons_prefix_cons.mp h
      rw [meets, beq_self_eq_true, Bool.true_and]
      exact ih k

theorem quiet_of_isQuiet {pattern cs : List Char} (h : isQuiet pattern cs = true) :
    Quiet pattern cs := by
  induction cs with
  | nil => exact .nil
  | cons c cs ih =>
    simp only [isQuiet, Bool.and_eq_true, Bool.not_eq_true'] at h
    refine .cons (fun rest k => ?_) (ih h.2)
    have met : meets pattern (c :: cs) = true :=
      meets_of_prefix (show pattern <+: (c :: cs) ++ rest from k)
    rw [h.1] at met
    contradiction

/-- A text falls apart in one way at the first character outside of a class. -/
theorem cut_unique {p : Char → Bool} {a b s t : List Char} {x y : Char}
    (ha : ∀ c ∈ a, p c = true) (hb : ∀ c ∈ b, p c = true) (hx : p x = false) (hy : p y = false)
    (h : a ++ x :: s = b ++ y :: t) : a = b ∧ x = y ∧ s = t := by
  have front := congrArg (List.takeWhile p) h
  have back := congrArg (List.dropWhile p) h
  simp only [List.takeWhile_append_of_pos ha, List.takeWhile_append_of_pos hb,
    List.dropWhile_append_of_pos ha, List.dropWhile_append_of_pos hb, List.takeWhile_cons,
    List.dropWhile_cons, hx, hy, Bool.false_eq_true, if_false, List.append_nil,
    List.cons.injEq] at front back
  exact ⟨front, back.1, back.2⟩

end Quire.Text

namespace Quire.Template

open Text (Quiet)

def scalarText (key : List Char) : List Char := '[' :: '[' :: (key ++ [']', ']'])

/-- Inside brackets only their start can be the start of a pattern in brackets. -/
theorem quiet_brackets {pattern body : List Char} (ne : body ≠ []) (plain : '[' ∉ body)
    (h : ∀ rest, ¬ pattern <+: body ++ rest) :
    Quiet ('[' :: '[' :: pattern) ('[' :: '[' :: body) := by
  refine .cons (fun rest k => ?_) (.cons (fun rest k => ?_) (Text.quiet_of_notMem plain))
  · simp only [List.cons_append, List.cons_prefix_cons, true_and] at k
    exact h rest k
  · obtain ⟨c, cs, rfl⟩ := List.exists_cons_of_ne_nil ne
    simp only [List.cons_append, List.cons_prefix_cons, true_and] at k
    exact plain (k.1 ▸ List.mem_cons_self)

theorem isKeyChar_ne {c d : Char} (h : isKeyChar c = true) (hd : isKeyChar d = false) : c ≠ d := by
  rintro rfl
  rw [h] at hd
  contradiction

namespace MarkerKind

theorem word_unique {kind other : MarkerKind} {a b : List Char}
    (h : kind.word.toList ++ ':' :: a = other.word.toList ++ ':' :: b) :
    kind = other ∧ a = b := by
  rcases kind with (_ | _) | (_ | _) <;> rcases other with (_ | _) | (_ | _) <;>
    simp_all [word]

theorem start_append (kind : MarkerKind) (pattern : List Char) :
    kind.start ++ pattern = '[' :: '[' :: (kind.word.toList ++ ':' :: pattern) := by
  simp [start]

theorem isKeyChar_word (kind : MarkerKind) : ∀ c ∈ kind.word.toList, isKeyChar c = true := by
  rcases kind with (_ | _) | (_ | _) <;> simp [word, isKeyChar]

end MarkerKind

/-- The key of a marker, in brackets of its own or with the mark of inversion. -/
def IsMarkerKey (key : List Char) : Prop := ∀ c ∈ key, isKeyChar c = true ∨ c = '!'

theorem IsMarkerKey.notMem {key : List Char} (h : IsMarkerKey key) {c : Char}
    (hc : isKeyChar c = false) (ne : c ≠ '!') : c ∉ key := by
  intro mem
  rcases h c mem with k | k
  · rw [hc] at k
    contradiction
  · exact ne k

/-- A scalar is quiet for all markers, as no key holds a colon. -/
theorem quiet_scalarText {key : List Char} (valid : ∀ c ∈ key, isKeyChar c = true)
    (kind : MarkerKind) (pattern : List Char) :
    Quiet (kind.start ++ pattern) (scalarText key) := by
  have bracket : '[' ∉ key := fun mem => isKeyChar_ne (valid _ mem) (by decide) rfl
  rw [kind.start_append]
  refine quiet_brackets (by simp) (by simp [bracket]) ?_
  rintro rest ⟨later, k⟩
  simp only [List.append_assoc, List.cons_append] at k
  have cut := Text.cut_unique (x := ':') (y := ']') kind.isKeyChar_word valid (by decide)
    (by decide) k
  exact absurd cut.2.1 (by decide)

theorem withKey_eq (kind : MarkerKind) (key : List Char) :
    kind.withKey key = '[' :: '[' :: (kind.word.toList ++ ':' :: (key ++ [']', ']'])) := by
  simp [MarkerKind.withKey, MarkerKind.start]

theorem bracket_notMem {key : List Char} (valid : IsMarkerKey key) (kind : MarkerKind) :
    '[' ∉ kind.word.toList ++ ':' :: (key ++ [']', ']']) := by
  have word : '[' ∉ kind.word.toList := fun mem =>
    isKeyChar_ne (kind.isKeyChar_word _ mem) (by decide) rfl
  have inside : '[' ∉ key := valid.notMem (by decide) (by decide)
  simp [word, inside]

/-- A marker is quiet for markers of other kinds. -/
theorem quiet_withKey_of_kind_ne {kind other : MarkerKind} {key : List Char} (ne : kind ≠ other)
    (valid : IsMarkerKey key) (pattern : List Char) :
    Quiet (kind.start ++ pattern) (other.withKey key) := by
  rw [kind.start_append, withKey_eq]
  refine quiet_brackets (by simp) (bracket_notMem valid other) ?_
  rintro rest ⟨later, k⟩
  simp only [List.append_assoc, List.cons_append] at k
  exact ne (MarkerKind.word_unique k).1

/-- A marker is quiet for markers of its kind with another key. -/
theorem quiet_withKey_of_key_ne (kind : MarkerKind) {key other : List Char} (ne : key ≠ other)
    (valid : IsMarkerKey key) (valid' : IsMarkerKey other) :
    Quiet (kind.withKey key) (kind.withKey other) := by
  have closed : ∀ {k : List Char}, IsMarkerKey k → ∀ c ∈ k, (c != ']') = true := by
    intro k hk c mem
    rw [bne_iff_ne]
    rintro rfl
    exact hk.notMem (by decide) (by decide) mem
  rw [withKey_eq, withKey_eq]
  refine quiet_brackets (by simp) (bracket_notMem valid' kind) ?_
  rintro rest ⟨later, k⟩
  simp only [List.append_assoc, List.cons_append] at k
  have same := (MarkerKind.word_unique k).2
  simp only [List.nil_append] at same
  exact ne (Text.cut_unique (closed valid) (closed valid') (by decide) (by decide) same).1

end Quire.Template
