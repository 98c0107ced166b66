import Quire.Proofs.Template.Syntax

/-!
# Deciding the conditions of a syntax tree

The search for blocks finds the blocks of the tree, whatever stands inside and behind them. So
deciding the text of a tree gives the text of a tree without conditions.
-/

namespace Quire.Template

open Text (Quiet)

variable (template : Template)

/-- What a block leaves behind when its condition is decided. -/
def decideCut (cut : Cut) : Except TemplateFailure (List Char) := do
  if ← template.shows? cut.key then template.decideBlocks cut.inner else pure []

/-- One step of the decision, without the bounds for its recursion. -/
theorem decideBlocks_eq (cs : List Char) :
    template.decideBlocks cs =
      (match Text.breakOn (MarkerKind.opening .conditional).start cs with
      | none => .ok cs
      | some (before, after) =>
        match cutBlock .conditional after with
        | .error unclosed => .error (.unterminatedBlock .conditional (String.ofList unclosed.key))
        | .ok cut => do
          let inner ← template.decideCut cut
          let rest ← template.decideBlocks cut.rest
          pure (before ++ inner ++ rest)) := by
  rw [decideBlocks]
  split
  · rename_i h
    rw [h]
  · rename_i before after h
    rw [h]
    dsimp only
    split
    · rename_i h'
      rw [h']
    · rename_i cut h'
      rw [h']
      dsimp only
      rw [decideCut]
      cases template.shows? cut.key with
      | error failure => rfl
      | ok shown => cases shown <;> rfl

/-- The search for a kind of block finds the block that a text starts with behind a quiet one. -/
theorem breakOn_blockText {kind : BlockKind} {cs : List Char}
    (quiet : Quiet (MarkerKind.opening kind).start cs) (key body rest : List Char) :
    Text.breakOn (MarkerKind.opening kind).start (cs ++ (blockText kind key body ++ rest)) =
      some (cs, key ++
        ([']', ']'] ++ (body ++ ((MarkerKind.closing kind).withKey key ++ rest)))) := by
  have start : blockText kind key body ++ rest = (MarkerKind.opening kind).start ++
      (key ++ ([']', ']'] ++ (body ++ ((MarkerKind.closing kind).withKey key ++ rest)))) := by
    simp [blockText, MarkerKind.withKey]
  rw [start, Text.breakOn_at quiet]

/-- A block is cut at its own end when its end does not stand inside. -/
theorem cutBlock_blockText {kind : BlockKind} {key body : List Char} (valid : IsMarkerKey key)
    (quiet : Quiet ((MarkerKind.closing kind).withKey key) body) (rest : List Char) :
    cutBlock kind
      (key ++ ([']', ']'] ++ (body ++ ((MarkerKind.closing kind).withKey key ++ rest)))) =
      .ok ⟨key, body, rest⟩ := by
  have quietKey : Quiet [']', ']'] key :=
    Text.quiet_of_notMem (valid.notMem (by decide) (by decide))
  rw [cutBlock, Text.breakOn_at quietKey]
  dsimp only
  rw [Text.breakOn_at quiet]

theorem decideBlocks_nil : template.decideBlocks [] = .ok [] := by
  rw [decideBlocks_eq]
  rfl

theorem decideBlocks_quiet {cs : List Char}
    (quiet : Quiet (MarkerKind.opening .conditional).start cs) (rest : List Char) :
    template.decideBlocks (cs ++ rest) = (template.decideBlocks rest).map (cs ++ ·) := by
  rw [decideBlocks_eq, decideBlocks_eq template rest, Text.breakOn_quiet_append quiet]
  cases Text.breakOn (MarkerKind.opening .conditional).start rest with
  | none => rfl
  | some found =>
    dsimp only [Option.map_some]
    cases cutBlock .conditional found.2 with
    | error unclosed => rfl
    | ok cut =>
      dsimp only
      cases template.decideCut cut with
      | error failure => rfl
      | ok inner =>
        cases template.decideBlocks cut.rest with
        | error failure => rfl
        | ok later => simp [bind, Except.bind, Except.map, pure, Except.pure]

theorem shows?_marked (inverted : Bool) (key : Key) :
    template.shows? (key.marked inverted) =
      (match template.conditionals.find? key.text with
      | some holds => .ok (holds != inverted)
      | none => .error (.unresolvedBlock .conditional key.text)) := by
  have plain : conditionOf (key.marked inverted) = (key.chars, inverted) := by
    cases inverted with
    | true => rfl
    | false =>
      rw [Key.marked, if_neg Bool.false_ne_true, conditionOf]
      exact fun rest => key.head_ne rest
  rw [shows?, plain]
  rfl

theorem decideBlocks_conditional {inverted : Bool} {key : Key} {body : List Char}
    (quiet : Quiet ((MarkerKind.closing .conditional).withKey (key.marked inverted)) body)
    (rest : List Char) :
    template.decideBlocks (blockText .conditional (key.marked inverted) body ++ rest) =
      (match template.conditionals.find? key.text with
      | none => .error (.unresolvedBlock .conditional key.text)
      | some holds => do
        let inner ← if holds != inverted then template.decideBlocks body else .ok []
        let later ← template.decideBlocks rest
        pure (inner ++ later)) := by
  have valid := key.marked_isMarkerKey inverted
  have quietNil : Quiet (MarkerKind.opening .conditional).start [] := .nil
  have found := breakOn_blockText quietNil (key.marked inverted) body rest
  rw [List.nil_append] at found
  rw [decideBlocks_eq, found]
  dsimp only
  rw [cutBlock_blockText valid quiet]
  dsimp only
  rw [decideCut, shows?_marked]
  cases template.conditionals.find? key.text with
  | none => rfl
  | some holds =>
    dsimp only
    cases holds != inverted <;> rfl

theorem Literal.quiet (text : Literal) (pattern : List Char) :
    Quiet ('[' :: '[' :: pattern) text.chars := by
  obtain ⟨chars, no_brackets, no_end⟩ := text
  dsimp only
  induction chars with
  | nil => exact .nil
  | cons c cs ih =>
    have inside : ¬ ['[', '['] <:+: cs := fun k =>
      no_brackets (k.trans (List.suffix_cons c cs).isInfix)
    refine .cons (fun rest k => ?_) (ih inside ?_)
    · obtain ⟨rfl, behind⟩ := List.cons_prefix_cons.mp k
      cases cs with
      | nil => exact no_end rfl
      | cons d cs =>
        obtain ⟨rfl, -⟩ := List.cons_prefix_cons.mp behind
        exact no_brackets ⟨[], cs, rfl⟩
    · cases cs with
      | nil => simp
      | cons d cs => rwa [List.getLast?_cons_cons] at no_end

mutual

/-- The end of a block that is open does not stand in a part that fits. -/
theorem Part.quiet_closing {blocks : OpenBlocks} {inverted : Bool} {key : Key}
    (inside : (inverted, key) ∈ blocks.conditions) : (part : Part) → part.fits blocks = true →
    Quiet ((MarkerKind.closing .conditional).withKey (key.marked inverted)) part.write
  | .literal text, _ => by
    rw [withKey_eq]
    exact text.quiet _
  | .scalar other, _ => by
    rw [MarkerKind.withKey, List.append_assoc]
    exact quiet_scalarText other.valid _ _
  | .conditional inverted' other body, fits => by
    simp only [Part.fits, Bool.and_eq_true, decide_eq_true_eq] at fits
    have valid := key.marked_isMarkerKey inverted
    have valid' := other.marked_isMarkerKey inverted'
    have ne : key.marked inverted ≠ other.marked inverted' := fun same =>
      fits.1 (Key.marked_injective same ▸ inside)
    have opening : Quiet ((MarkerKind.closing .conditional).withKey (key.marked inverted))
        ((MarkerKind.opening .conditional).withKey (other.marked inverted')) := by
      rw [MarkerKind.withKey, List.append_assoc]
      exact quiet_withKey_of_kind_ne (by simp) valid' _
    have within := Part.allQuiet_closing (List.mem_cons_of_mem _ inside) body fits.2
    exact opening.append (within.append (quiet_withKey_of_key_ne _ ne valid valid'))
  | .loop other body, fits => by
    simp only [Part.fits, Bool.and_eq_true] at fits
    have valid' := other.marked_isMarkerKey false
    have marker (kind : MarkerKind) (ne : MarkerKind.closing .conditional ≠ kind) :
        Quiet ((MarkerKind.closing .conditional).withKey (key.marked inverted))
          (kind.withKey other.chars) := by
      rw [MarkerKind.withKey, List.append_assoc]
      exact quiet_withKey_of_kind_ne ne valid' _
    have inside' : (inverted, key) ∈ { blocks with inLoop := true }.conditions := inside
    have within := Part.allQuiet_closing inside' body fits.2
    exact (marker _ (by simp)).append (within.append (marker _ (by simp)))

theorem Part.allQuiet_closing {blocks : OpenBlocks} {inverted : Bool} {key : Key}
    (inside : (inverted, key) ∈ blocks.conditions) : (parts : List Part) →
    Part.allFit blocks parts = true →
    Quiet ((MarkerKind.closing .conditional).withKey (key.marked inverted)) (Part.writeAll parts)
  | [], _ => .nil
  | part :: rest, fits => by
    simp only [Part.allFit, Bool.and_eq_true] at fits
    exact (Part.quiet_closing inside part fits.1).append (Part.allQuiet_closing inside rest fits.2)

end

mutual

def Part.kept : Part → List Part
  | .literal text => [.literal text]
  | .scalar key => [.scalar key]
  | .conditional inverted key body =>
    match template.conditionals.find? key.text with
    | some holds => if holds != inverted then Part.keptAll body else []
    | none => []
  | .loop key body => [.loop key (Part.keptAll body)]

def Part.keptAll : List Part → List Part
  | [] => []
  | part :: rest => part.kept ++ Part.keptAll rest

end

theorem Part.writeAll_append (a b : List Part) :
    Part.writeAll (a ++ b) = Part.writeAll a ++ Part.writeAll b := by
  induction a with
  | nil => rfl
  | cons part rest ih => rw [List.cons_append, writeAll, writeAll, ih, List.append_assoc]

section Decide

mutual

/-- Deciding the text of a part gives the text of what is kept of it. -/
theorem Part.decideBlocks_write {blocks : OpenBlocks} : (part : Part) → part.fits blocks = true →
    (rest : List Char) →
    template.decideBlocks (part.write ++ rest) =
      (match part.undecided? template with
      | some key => .error (.unresolvedBlock .conditional key.text)
      | none => (template.decideBlocks rest).map (Part.writeAll (part.kept template) ++ ·))
  | .literal text, _, rest => by
    have quiet : Quiet (MarkerKind.opening .conditional).start text.chars := text.quiet _
    simpa [Part.write, Part.undecided?, Part.kept, Part.writeAll] using
      decideBlocks_quiet template quiet rest
  | .scalar key, _, rest => by
    have quiet := quiet_scalarText key.valid (.opening .conditional) []
    rw [List.append_nil] at quiet
    simpa [Part.write, Part.undecided?, Part.kept, Part.writeAll] using
      decideBlocks_quiet template quiet rest
  | .conditional inverted key body, fits, rest => by
    simp only [Part.fits, Bool.and_eq_true] at fits
    have quiet := Part.allQuiet_closing List.mem_cons_self body fits.2
    have inner := Part.decideBlocks_writeAll body fits.2 []
    rw [List.append_nil, decideBlocks_nil] at inner
    rw [Part.write, decideBlocks_conditional template quiet, inner, Part.undecided?, Part.kept]
    cases template.conditionals.find? key.text with
    | none => rfl
    | some holds =>
      dsimp only
      cases holds != inverted with
      | false => cases template.decideBlocks rest <;> rfl
      | true =>
        simp only [if_true]
        cases Part.firstUndecided? template body with
        | some key => rfl
        | none =>
          cases template.decideBlocks rest with
          | error failure => rfl
          | ok later => simp [bind, Except.bind, Except.map, pure, Except.pure]
  | .loop key body, fits, rest => by
    simp only [Part.fits, Bool.and_eq_true] at fits
    have marker (kind : MarkerKind) (ne : MarkerKind.opening .conditional ≠ kind) :
        Quiet (MarkerKind.opening .conditional).start (kind.withKey key.chars) := by
      rw [← List.append_nil (MarkerKind.start _)]
      exact quiet_withKey_of_kind_ne ne (key.marked_isMarkerKey false) _
    rw [Part.write, blockText, List.append_assoc, List.append_assoc,
      decideBlocks_quiet template (marker _ (by simp)), Part.decideBlocks_writeAll body fits.2,
      decideBlocks_quiet template (marker _ (by simp)), Part.undecided?, Part.kept]
    cases Part.firstUndecided? template body with
    | some key => rfl
    | none =>
      cases template.decideBlocks rest with
      | error failure => rfl
      | ok later => simp [Except.map, Part.writeAll, Part.write, blockText]

theorem Part.decideBlocks_writeAll {blocks : OpenBlocks} : (parts : List Part) →
    Part.allFit blocks parts = true → (rest : List Char) →
    template.decideBlocks (Part.writeAll parts ++ rest) =
      (match Part.firstUndecided? template parts with
      | some key => .error (.unresolvedBlock .conditional key.text)
      | none =>
        (template.decideBlocks rest).map (Part.writeAll (Part.keptAll template parts) ++ ·))
  | [], _, rest => by
    rw [Part.writeAll, Part.firstUndecided?, Part.keptAll, List.nil_append]
    cases template.decideBlocks rest <;> rfl
  | part :: others, fits, rest => by
    simp only [Part.allFit, Bool.and_eq_true] at fits
    rw [Part.writeAll, List.append_assoc, Part.decideBlocks_write part fits.1,
      Part.decideBlocks_writeAll others fits.2, Part.firstUndecided?, Part.keptAll,
      Part.writeAll_append]
    cases part.undecided? template with
    | some key => rfl
    | none =>
      rw [Option.none_or]
      dsimp only
      cases Part.firstUndecided? template others with
      | some key => rfl
      | none =>
        cases template.decideBlocks rest with
        | error failure => rfl
        | ok later => simp [Except.map]

end

def Part.isFlat : Part → Bool
  | .literal _ => true
  | .scalar _ => true
  | .conditional .. => false
  | .loop .. => false

/-- A part without conditions, and without loops in loops. -/
def Part.isDecided : Part → Bool
  | .literal _ => true
  | .scalar _ => true
  | .conditional .. => false
  | .loop _ body => body.all Part.isFlat

mutual

theorem Part.isFlat_of_kept {blocks : OpenBlocks} (inLoop : blocks.inLoop = true) :
    (part : Part) → part.fits blocks = true → ∀ p ∈ part.kept template, p.isFlat = true
  | .literal text, _ => by simp [Part.kept, Part.isFlat]
  | .scalar key, _ => by simp [Part.kept, Part.isFlat]
  | .conditional inverted key body, fits => by
    simp only [Part.fits, Bool.and_eq_true] at fits
    let within : OpenBlocks := { blocks with conditions := (inverted, key) :: blocks.conditions }
    have inner := Part.isFlat_of_keptAll (show within.inLoop = true from inLoop) body fits.2
    rw [Part.kept]
    split
    · split
      · exact inner
      · simp
    · simp
  | .loop key body, fits => by simp [Part.fits, inLoop] at fits

theorem Part.isFlat_of_keptAll {blocks : OpenBlocks} (inLoop : blocks.inLoop = true) :
    (parts : List Part) → Part.allFit blocks parts = true →
    ∀ p ∈ Part.keptAll template parts, p.isFlat = true
  | [], _ => by simp [Part.keptAll]
  | part :: rest, fits => by
    simp only [Part.allFit, Bool.and_eq_true] at fits
    intro p mem
    rcases List.mem_append.mp mem with mem | mem
    · exact Part.isFlat_of_kept inLoop part fits.1 p mem
    · exact Part.isFlat_of_keptAll inLoop rest fits.2 p mem

end

mutual

theorem Part.isDecided_of_kept {blocks : OpenBlocks} :
    (part : Part) → part.fits blocks = true → ∀ p ∈ part.kept template, p.isDecided = true
  | .literal text, _ => by simp [Part.kept, Part.isDecided]
  | .scalar key, _ => by simp [Part.kept, Part.isDecided]
  | .conditional inverted key body, fits => by
    simp only [Part.fits, Bool.and_eq_true] at fits
    have inner := Part.isDecided_of_keptAll body fits.2
    rw [Part.kept]
    split
    · split
      · exact inner
      · simp
    · simp
  | .loop key body, fits => by
    simp only [Part.fits, Bool.and_eq_true] at fits
    intro p mem
    rw [Part.kept, List.mem_singleton] at mem
    subst mem
    exact List.all_eq_true.mpr (Part.isFlat_of_keptAll template rfl body fits.2)

theorem Part.isDecided_of_keptAll {blocks : OpenBlocks} :
    (parts : List Part) → Part.allFit blocks parts = true →
    ∀ p ∈ Part.keptAll template parts, p.isDecided = true
  | [], _ => by simp [Part.keptAll]
  | part :: rest, fits => by
    simp only [Part.allFit, Bool.and_eq_true] at fits
    intro p mem
    rcases List.mem_append.mp mem with mem | mem
    · exact Part.isDecided_of_kept part fits.1 p mem
    · exact Part.isDecided_of_keptAll rest fits.2 p mem

end

end Decide

end Quire.Template
