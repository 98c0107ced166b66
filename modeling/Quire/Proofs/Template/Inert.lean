import Quire.Proofs.Outcome
import Quire.Proofs.Template.Outline
import Mathlib.Data.List.Chain

/-!
# The literals of an outline are inert

What an outline takes over from the template holds no scalar and no marker. So two templates that
differ in the supplied texts only give the same inert literals with other texts between them.
-/

namespace Quire.Template

/-- A text without scalars and markers. -/
def Plain (cs : List Char) : Prop :=
  (∀ key : Key, ¬ scalarText key.chars <:+: cs) ∧
    ∀ (kind : MarkerKind) (key : Key) (inverted : Bool),
      ¬ kind.withKey (key.marked inverted) <:+: cs

/-- Pieces whose literals are plain text of a template, in the order of the template. No two of them
touch, so none is plain just because it was cut short. -/
structure Inert (text : List Char) (pieces : List Piece) : Prop where
  sublist : ∀ cs, Piece.literal cs ∈ pieces → cs.Sublist text
  plain : ∀ cs, Piece.literal cs ∈ pieces → Plain cs
  apart : pieces.IsChain fun a b => ¬ (a.isLiteral = true ∧ b.isLiteral = true)

theorem scalarAt?_eq_some {cs key : List Char} (h : scalarAt? cs = some key) :
    ∃ k : Key, k.chars = key ∧ ∃ rest, cs = scalarText k.chars ++ rest := by
  unfold scalarAt? at h
  split at h
  · rename_i inside
    simp only [keyAt?] at h
    split at h
    · rename_i closed
      simp only [Bool.and_eq_true, Bool.not_eq_true', List.isEmpty_eq_false_iff] at closed
      obtain ⟨rest, behind⟩ := List.isPrefixOf_iff_prefix.mp closed.2
      have valid : ∀ c ∈ inside.takeWhile isKeyChar, isKeyChar c = true := 
        List.all_eq_true.mp List.all_takeWhile
      refine ⟨⟨_, closed.1, valid⟩, Option.some.inj h, rest, ?_⟩
      conv_lhs => rw [← List.takeWhile_append_dropWhile (p := isKeyChar) (l := inside), ← behind]
      simp [scalarText]
    · contradiction
  · contradiction

theorem no_marker_of_firstMarker? {cs : List Char} (h : firstMarker? cs = none)
    (kind : MarkerKind) (key : Key) (inverted : Bool) :
    ¬ kind.withKey (key.marked inverted) <:+: cs := by
  induction cs with
  | nil =>
    intro k
    have := List.infix_nil.mp k
    simp [withKey_eq] at this
  | cons c rest ih =>
    rw [firstMarker?] at h
    cases front : markerAt? (c :: rest) with
    | some found => simp [front] at h
    | none =>
      rw [front] at h
      intro k
      rcases List.infix_cons_iff.mp k with ⟨behind, eq⟩ | k
      · have some := markerAt?_withKey kind key inverted behind
        rw [eq, front] at some
        contradiction
      · exact ih h k

/-- Pieces of a text: their template text stands in it, and at its start if it comes first. -/
structure Reads (cs : List Char) (pieces : List Piece) : Prop where
  inside : ∀ l, Piece.literal l ∈ pieces → l <:+: cs
  front : ∀ l, pieces.head? = some (.literal l) → l <+: cs
  no_scalar : ∀ l, Piece.literal l ∈ pieces → ∀ key : Key, ¬ scalarText key.chars <:+: l
  apart : pieces.IsChain fun a b => ¬ (a.isLiteral = true ∧ b.isLiteral = true)

namespace Reads

theorem nil : Reads [] [] := ⟨by simp, by simp, by simp, .nil⟩

theorem inserted {cs : List Char} {pieces : List Piece} (h : Reads cs pieces) (source : Source)
    (before : List Char) : Reads (before ++ cs) (.inserted source :: pieces) where
  inside l mem := by
    have mem : Piece.literal l ∈ pieces := by simpa using mem
    exact (h.inside l mem).trans (List.suffix_append before cs).isInfix
  front l first := by simp at first
  no_scalar l mem := h.no_scalar l (by simpa using mem)
  apart := List.isChain_cons.mpr ⟨by simp [Piece.isLiteral], h.apart⟩

/-- Template text in front of pieces that do not start with template text. -/
theorem literal {l cs : List Char} {pieces : List Piece} (h : Reads cs pieces)
    (apart : ∀ piece, pieces.head? = some piece → piece.isLiteral = false)
    (free : ∀ key : Key, ¬ scalarText key.chars <:+: l) :
    Reads (l ++ cs) (.literal l :: pieces) where
  inside k mem := by
    rcases List.mem_cons.mp mem with eq | mem
    · rw [Piece.literal.inj eq]
      exact (List.prefix_append l cs).isInfix
    · exact (h.inside k mem).trans (List.suffix_append l cs).isInfix
  front k first := by
    rw [List.head?_cons, Option.some.injEq, Piece.literal.injEq] at first
    rw [← first]
    exact List.prefix_append l cs
  no_scalar k mem := by
    rcases List.mem_cons.mp mem with eq | mem
    · rw [Piece.literal.inj eq]
      exact free
    · exact h.no_scalar k mem
  apart := by
    refine List.isChain_cons.mpr ⟨fun piece first both => ?_, h.apart⟩
    rw [apart piece first] at both
    exact Bool.false_ne_true both.2

theorem withChar {c : Char} {cs : List Char} {pieces : List Piece} (h : Reads cs pieces)
    (none : scalarAt? (c :: cs) = none) : Reads (c :: cs) (withChar c pieces) := by
  have free {l : List Char} (front : l <+: cs)
      (free : ∀ key : Key, ¬ scalarText key.chars <:+: l) (key : Key) :
      ¬ scalarText key.chars <:+: c :: l := by
    intro k
    rcases List.infix_cons_iff.mp k with k | k
    · obtain ⟨rest, eq⟩ := k.trans (List.cons_prefix_cons.mpr ⟨rfl, front⟩)
      have some := scalarAt?_scalarText key rest
      rw [eq, none] at some
      contradiction
    · exact free key k
  have alone (apart : ∀ piece, pieces.head? = some piece → piece.isLiteral = false) :
      Reads (c :: cs) (.literal [c] :: pieces) :=
    h.literal apart (free (List.nil_prefix) (by simp [scalarText]))
  cases pieces with
  | nil => exact alone (by simp)
  | cons piece rest =>
    cases piece with
    | inserted source => exact alone (by simp [Piece.isLiteral])
    | literal l =>
      have front : l <+: cs := h.front l rfl
      have here : c :: l <+: c :: cs := List.cons_prefix_cons.mpr ⟨rfl, front⟩
      refine ⟨fun k mem => ?_, fun k first => ?_, fun k mem => ?_, ?_⟩
      · rcases List.mem_cons.mp mem with eq | mem
        · rw [Piece.literal.inj eq]
          exact here.isInfix
        · exact (h.inside k (List.mem_cons_of_mem _ mem)).trans (List.suffix_cons c cs).isInfix
      · rw [Template.withChar, List.head?_cons, Option.some.injEq, Piece.literal.injEq] at first
        rwa [← first]
      · rcases List.mem_cons.mp mem with eq | mem
        · rw [Piece.literal.inj eq]
          exact free front (h.no_scalar l List.mem_cons_self)
        · exact h.no_scalar k (List.mem_cons_of_mem _ mem)
      · have apart := List.isChain_cons.mp h.apart
        exact List.isChain_cons.mpr ⟨apart.1, apart.2⟩

end Reads

/-- Cutting a block out takes its markers and nothing else. -/
theorem sublist_of_cutBlock {kind : BlockKind} {cs before after : List Char} {cut : Cut}
    (found : Text.breakOn (MarkerKind.opening kind).start cs = some (before, after))
    (h : cutBlock kind after = .ok cut) :
    (before ++ (cut.inner ++ cut.rest)).Sublist cs := by
  rw [← Text.append_of_breakOn found]
  refine (List.Sublist.refl before).append (.trans ?_ (List.sublist_append_right _ _))
  unfold cutBlock at h
  split at h
  · contradiction
  · rename_i key body opened
    split at h
    · contradiction
    · rename_i inner rest closed
      obtain rfl := Except.ok.inj h
      rw [← Text.append_of_breakOn opened, ← Text.append_of_breakOn closed]
      refine .trans ?_ ((List.sublist_append_right _ _).trans (List.sublist_append_right _ _))
      exact (List.Sublist.refl inner).append (List.sublist_append_right _ _)

/-- Deciding the blocks only takes text away. -/
theorem sublist_of_decideBlocks {template : Template} {cs decided : List Char}
    (h : template.decideBlocks cs = .ok decided) : decided.Sublist cs := by
  induction n : cs.length using Nat.strongRecOn generalizing cs decided with
  | _ n ih =>
    subst n
    rw [decideBlocks_eq] at h
    cases found : Text.breakOn (MarkerKind.opening .conditional).start cs with
    | none =>
      rw [found] at h
      obtain rfl := Except.ok.inj h
      exact .refl _
    | some parts =>
      obtain ⟨before, after⟩ := parts
      rw [found] at h
      dsimp only at h
      cases block : cutBlock .conditional after with
      | error unclosed => simp [block] at h
      | ok cut =>
        rw [block] at h
        obtain ⟨inner, shown, h⟩ := bind_eq_ok h
        obtain ⟨rest, later, h⟩ := bind_eq_ok h
        obtain rfl := Except.ok.inj h
        obtain ⟨shorter, shorter'⟩ := shorter_of_cutBlock found block
        have inside : inner.Sublist cut.inner := by
          rw [decideCut] at shown
          obtain ⟨holds, -, shown⟩ := bind_eq_ok shown
          cases holds with
          | true => exact ih _ shorter shown rfl
          | false =>
            obtain rfl := Except.ok.inj shown
            exact List.nil_sublist _
        have behind := ih _ shorter' later rfl
        rw [List.append_assoc]
        exact ((List.Sublist.refl before).append (inside.append behind)).trans
          (sublist_of_cutBlock found block)

theorem reads_fill {source? : String → Option Source} (cs : List Char) {pieces : List Piece}
    (h : outlineFill source? (segments cs) = .ok pieces) : Reads cs pieces := by
  induction n : cs.length using Nat.strongRecOn generalizing cs pieces with
  | _ n ih =>
    subst n
    cases cs with
    | nil =>
      obtain rfl := Except.ok.inj h
      exact .nil
    | cons c rest =>
      cases front : scalarAt? (c :: rest) with
      | none =>
        have segment : segments (c :: rest) = .literal c :: segments rest := by
          rw [segments, segmentsAfter, front]
          rfl
        rw [segment, outlineFill] at h
        obtain ⟨others, later, h⟩ := bind_eq_ok h
        obtain rfl := Except.ok.inj h
        exact (ih _ (by simp) rest later rfl).withChar front
      | some key =>
        obtain ⟨key, -, rest', text⟩ := scalarAt?_eq_some front
        rw [text, segments_scalar, outlineFill] at h
        have shorter : rest'.length < (c :: rest).length := by
          rw [text, scalarText]
          simp
          omega
        rw [text]
        cases source : source? key.text with
        | none => simp [source] at h
        | some source' =>
          rw [source] at h
          obtain ⟨others, later, h⟩ := bind_eq_ok h
          obtain rfl := Except.ok.inj h
          exact (ih _ shorter rest' later rfl).inserted source' _

theorem Inert.of_sublist {a b : List Char} {pieces : List Piece} (h : Inert a pieces)
    (sub : a.Sublist b) : Inert b pieces :=
  ⟨fun l mem => (h.sublist l mem).trans sub, h.plain, h.apart⟩

theorem inert_text {source? : String → Option Source} {cs : List Char} {pieces : List Piece}
    (h : outlineText source? cs = .ok pieces) : Inert cs pieces := by
  rw [outlineText] at h
  cases markers : firstMarker? cs with
  | some marker => simp [markers] at h
  | none =>
    rw [markers] at h
    have reads := reads_fill cs h
    refine ⟨fun l mem => (reads.inside l mem).sublist,
      fun l mem => ⟨reads.no_scalar l mem, fun kind key inverted k => ?_⟩, reads.apart⟩
    exact no_marker_of_firstMarker? markers kind key inverted (k.trans (reads.inside l mem))

theorem inert_copies {shape : Shape} {block : String} {inner : List Char} {index : Nat}
    {rows : List (String → Bool)} {copies : List (List Piece)}
    (h : shape.outlineCopies block inner index rows = .ok copies) :
    ∀ stretch ∈ copies, Inert inner stretch := by
  induction rows generalizing index copies with
  | nil =>
    obtain rfl := Except.ok.inj h
    simp
  | cons row rest ih =>
    rw [Shape.outlineCopies] at h
    obtain ⟨copy, first, h⟩ := bind_eq_ok h
    obtain ⟨others, later, h⟩ := bind_eq_ok h
    obtain rfl := Except.ok.inj h
    rw [List.forall_mem_cons]
    exact ⟨inert_text first, ih later⟩

theorem inert_blocks {shape : Shape} {cs : List Char} {stretches : List (List Piece)}
    (h : shape.outlineBlocks cs = .ok stretches) : ∀ stretch ∈ stretches, Inert cs stretch := by
  induction n : cs.length using Nat.strongRecOn generalizing cs stretches with
  | _ n ih =>
    subst n
    rw [outlineBlocks_eq] at h
    cases found : Text.breakOn (MarkerKind.opening .iterable).start cs with
    | none =>
      rw [found] at h
      obtain ⟨pieces, whole, h⟩ := bind_eq_ok h
      obtain rfl := Except.ok.inj h
      simpa using inert_text whole
    | some parts =>
      obtain ⟨before, after⟩ := parts
      rw [found] at h
      obtain ⟨front, first, h⟩ := bind_eq_ok h
      cases block : cutBlock .iterable after with
      | error unclosed => simp [block] at h
      | ok cut =>
        rw [block] at h
        dsimp only at h
        cases bound : shape.rows? (String.ofList cut.key) with
        | none => simp [bound] at h
        | some rows =>
          rw [bound] at h
          obtain ⟨copies, inner, h⟩ := bind_eq_ok h
          obtain ⟨rest, later, h⟩ := bind_eq_ok h
          obtain rfl := Except.ok.inj h
          have behind := ih _ (shorter_of_cutBlock found block).2 later rfl
          have sub := sublist_of_cutBlock found block
          rw [List.cons_append, List.forall_mem_cons, List.forall_mem_append]
          refine ⟨(inert_text first).of_sublist ?_, fun stretch mem => ?_, fun stretch mem => ?_⟩
          · exact (List.sublist_append_left _ _).trans sub
          · refine (inert_copies inner stretch mem).of_sublist (.trans ?_ sub)
            exact (List.sublist_append_left _ _).trans (List.sublist_append_right _ _)
          · refine (behind stretch mem).of_sublist (.trans ?_ sub)
            exact (List.sublist_append_right _ _).trans (List.sublist_append_right _ _)

/-- Writing out the outline of a template is processing it. -/
theorem process_outline (template : Template) :
    (∃ failure, template.outline = .error failure ∧ template.process = .error failure) ∨
      ∃ stretches text, template.outline = .ok stretches ∧
        template.process = .ok (String.ofList text) ∧
        template.written? stretches.flatten = some text ∧
        ∀ stretch ∈ stretches, Inert template.text.toList stretch := by
  rw [outline, process]
  cases decision : template.decideBlocks template.text.toList with
  | error failure => exact .inl ⟨failure, rfl, rfl⟩
  | ok decided =>
    have writes := template.writes_blocks decided
    dsimp only [bind, Except.bind]
    cases h : template.shape.outlineBlocks decided with
    | error failure =>
      rw [h] at writes
      rcases writes with ⟨failure', eq, output⟩ | ⟨pieces, text, eq, -⟩
      · obtain rfl := Except.error.inj eq
        rw [output]
        exact .inl ⟨failure, rfl, rfl⟩
      · contradiction
    | ok stretches =>
      rw [h] at writes
      rcases writes with ⟨failure', eq, -⟩ | ⟨pieces, text, eq, output, written⟩
      · contradiction
      · obtain rfl := Except.ok.inj eq
        rw [output]
        refine .inr ⟨stretches, text, rfl, rfl, written, fun stretch mem => ?_⟩
        exact (inert_blocks h stretch mem).of_sublist (sublist_of_decideBlocks decision)

/-- Templates of one shape are processed both, or fail both in the same way. -/
theorem sameOutcome_process {s t : Template} (same : SameShape s t) :
    SameOutcome s.process t.process := by
  have shared : s.outline = t.outline := outline_eq same
  rcases process_outline s with ⟨failure, outline, failed⟩ | ⟨_, a, outline, done, -⟩
  · rcases process_outline t with ⟨failure', outline', failed'⟩ | ⟨_, b, outline', -⟩
    · rw [shared, outline', Except.error.injEq] at outline
      rw [failed, failed', outline]
      exact .error failure
    · rw [shared, outline'] at outline
      contradiction
  · rcases process_outline t with ⟨failure', outline', -⟩ | ⟨_, b, outline', done', -⟩
    · rw [shared, outline'] at outline
      contradiction
    · rw [done, done']
      exact .ok _ _

/-- Two templates that differ in the contents of their supplied texts only: processing fails in both
in the same way, or both outputs are the same inert pieces with the texts of each put in. -/
theorem process_of_sameShape {s t : Template} (same : SameShape s t) :
    (∃ failure, s.process = .error failure ∧ t.process = .error failure) ∨
      ∃ stretches a b, s.outline = .ok stretches ∧ t.outline = .ok stretches ∧
        (∀ stretch ∈ stretches, Inert s.text.toList stretch) ∧
        s.process = .ok (String.ofList a) ∧ s.written? stretches.flatten = some a ∧
        t.process = .ok (String.ofList b) ∧ t.written? stretches.flatten = some b := by
  have shared : s.outline = t.outline := outline_eq same
  rcases process_outline s with ⟨failure, outline, failed⟩ |
    ⟨stretches, a, outline, done, out, inert⟩
  · rcases process_outline t with ⟨failure', outline', failed'⟩ | ⟨_, _, outline', -⟩
    · rw [shared, outline', Except.error.injEq] at outline
      subst outline
      exact .inl ⟨failure', failed, failed'⟩
    · rw [shared, outline'] at outline
      contradiction
  · rcases process_outline t with ⟨failure', outline', -⟩ | ⟨_, b, outline', done', out', -⟩
    · rw [shared, outline'] at outline
      contradiction
    · rw [shared, outline', Except.ok.injEq] at outline
      subst outline
      exact .inr ⟨_, a, b, shared.trans outline', outline', inert, done, out, done', out'⟩

/-- Values that read as template code, in one template. -/
theorem process_of_sameShape_code :
    let page (value row : String) : Template := {
      text := "<[[A]]>[[for:R]]([[R]])[[endfor:R]]"
      values := ⟨[("A", value)]⟩
      iterables := ⟨[("R", [.single row])]⟩ }
    let s := page "[[if:A]]" "[[A]]"
    let t := page "[[R]]" "[[endfor:R]]"
    SameShape s t ∧
      ((∃ failure, s.process = .error failure ∧ t.process = .error failure) ∨
        ∃ stretches a b, s.outline = .ok stretches ∧ t.outline = .ok stretches ∧
          (∀ stretch ∈ stretches, Inert s.text.toList stretch) ∧
          s.process = .ok (String.ofList a) ∧ s.written? stretches.flatten = some a ∧
          t.process = .ok (String.ofList b) ∧ t.written? stretches.flatten = some b) := by
  intro page s t
  have rows (key : String) : Option.Rel (List.Forall₂ TemplateRow.SameShape)
      (s.iterables.find? key) (t.iterables.find? key) := by
    simp only [s, t, page, Registry.find?, List.find?_cons, List.find?_nil]
    cases "R" == key with
    | true => exact .some (.cons (.single _ _) .nil)
    | false => exact .none
  have same : SameShape s t := ⟨rfl, fun _ => rfl, fun _ => rfl, rows⟩
  exact ⟨same, process_of_sameShape same⟩

end Quire.Template
