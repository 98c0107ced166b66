import Quire.Proofs.Html.Contents

/-!
# Nesting of a table of contents

The stack of open lists comes to a forest of lists, in which an entry stands inside the nearest
entry before it of a smaller depth.
-/

namespace Quire.Html

/-- An item of a table of contents, with the lists inside it. -/
inductive ContentsItem where
  | mk (entry : ContentsEntry) (lists : List (List ContentsItem))

namespace ContentsItem

mutual

def pieces : ContentsItem → List Piece
  | mk entry lists => entry.link ++ piecesLists lists ++ [.closing "li"]

/-- Every item stands on a line of its own. -/
def piecesAll : List ContentsItem → List Piece
  | [] => []
  | item :: rest => .text "\n" :: item.pieces ++ piecesAll rest

def piecesLists : List (List ContentsItem) → List Piece
  | [] => []
  | list :: rest =>
    .opening "ol" [] :: piecesAll list ++ [.closing "ol", .text "\n"] ++ piecesLists rest

end

mutual

def entries : ContentsItem → List ContentsEntry
  | mk entry lists => entry :: entriesLists lists

def entriesAll : List ContentsItem → List ContentsEntry
  | [] => []
  | item :: rest => item.entries ++ entriesAll rest

def entriesLists : List (List ContentsItem) → List ContentsEntry
  | [] => []
  | list :: rest => entriesAll list ++ entriesLists rest

end

mutual

/-- The entries, each with the place of the one whose item it stands in. Places are counted from
that of the item. -/
def placed (owner : Option Nat) (place : Nat) : ContentsItem → List (Option Nat × ContentsEntry)
  | mk entry lists => (owner, entry) :: placedLists (some place) (place + 1) lists

def placedAll (owner : Option Nat) (place : Nat) :
    List ContentsItem → List (Option Nat × ContentsEntry)
  | [] => []
  | item :: rest =>
    item.placed owner place ++ placedAll owner (place + item.entries.length) rest

def placedLists (owner : Option Nat) (place : Nat) :
    List (List ContentsItem) → List (Option Nat × ContentsEntry)
  | [] => []
  | list :: rest =>
    placedAll owner place list ++ placedLists owner (place + (entriesAll list).length) rest

end

mutual

def within : ContentsItem → List (List ContentsItem)
  | mk _ lists => withinLists lists

def withinAll : List ContentsItem → List (List ContentsItem)
  | [] => []
  | item :: rest => item.within ++ withinAll rest

def withinLists : List (List ContentsItem) → List (List ContentsItem)
  | [] => []
  | list :: rest => list :: withinAll list ++ withinLists rest

end

def depth : ContentsItem → Nat
  | mk entry _ => entry.depth

mutual

/-- An item is at a depth, and the lists inside it are deeper. -/
def Nests (depth : Nat) : ContentsItem → Prop
  | mk entry lists => entry.depth = depth ∧ NestsLists (depth < ·) lists

def NestsAll (depth : Nat) : List ContentsItem → Prop
  | [] => True
  | item :: rest => item.Nests depth ∧ NestsAll depth rest

/-- Every list is of one depth in a range, and they come up from one to the next. -/
def NestsLists (range : Nat → Prop) : List (List ContentsItem) → Prop
  | [] => True
  | list :: rest =>
    ∃ depth, range depth ∧ list ≠ [] ∧ NestsAll depth list ∧
      NestsLists (fun next => range next ∧ next < depth) rest

end

theorem entries_length_pos (item : ContentsItem) : 0 < item.entries.length := by
  cases item
  exact Nat.succ_pos _

theorem NestsLists.imp {range wider : Nat → Prop} (wide : ∀ depth, range depth → wider depth)
    {lists : List (List ContentsItem)} (h : NestsLists range lists) : NestsLists wider lists := by
  induction lists generalizing range wider with
  | nil => trivial
  | cons list rest ih =>
    obtain ⟨depth, inside, filled, items, behind⟩ := h
    have later := ih (fun next => And.imp_left (wide next)) behind
    exact ⟨depth, wide depth inside, filled, items, later⟩

theorem nestsAll_iff {depth : Nat} {items : List ContentsItem} :
    NestsAll depth items ↔ ∀ item ∈ items, item.Nests depth := by
  induction items with
  | nil => simp [NestsAll]
  | cons item rest ih => rw [NestsAll, ih, List.forall_mem_cons]

theorem Nests.depth_eq {depth : Nat} {item : ContentsItem} (h : item.Nests depth) :
    item.depth = depth := by
  cases item
  exact h.1

end ContentsItem

section Building

open ContentsItem

variable {depth : Nat} {depths : List Nat} {entry : ContentsEntry} {rest : List ContentsEntry}

theorem contentsFrom_nil_cons : contentsFrom (depth :: depths) [] =
    closeList ++ contentsFrom depths [] := rfl

theorem contentsFrom_above (h : entry.depth < depth) :
    contentsFrom (depth :: depths) (entry :: rest) =
      closeList ++ contentsFrom depths (entry :: rest) := by
  simp [contentsFrom, h, closeLists, List.replicate_succ]

theorem contentsFrom_same : contentsFrom (entry.depth :: depths) (entry :: rest) =
    .closing "li" :: .text "\n" :: entry.link ++ contentsFrom (entry.depth :: depths) rest := by
  simp [contentsFrom, closeLists, startItem]

theorem contentsFrom_below (h : ∀ depth ∈ depths.head?, depth < entry.depth) :
    contentsFrom depths (entry :: rest) =
      .opening "ol" [] :: .text "\n" :: entry.link ++
        contentsFrom (entry.depth :: depths) rest := by
  cases depths with
  | nil => simp [contentsFrom, closeLists, startItem]
  | cons depth depths =>
    have deeper : depth < entry.depth := h depth rfl
    simp [contentsFrom, closeLists, startItem, Nat.ne_of_lt deeper, Nat.le_of_lt deeper]

/-- The depths a list can have that starts at an entry, inside the open item. -/
def Opens (depths : List Nat) (entries : List ContentsEntry) (depth : Nat) : Prop :=
  (∀ outer ∈ depths.head?, outer < depth) ∧ ∃ entry ∈ entries.head?, depth ≤ entry.depth

mutual

/-- Entries deeper than the open item come to lists inside it. -/
theorem exists_lists (depths : List Nat) (entries : List ContentsEntry) :
    ∃ lists later, entries = entriesLists lists ++ later ∧
      contentsFrom depths entries = piecesLists lists ++ contentsFrom depths later ∧
      NestsLists (Opens depths entries) lists ∧
      ∀ next ∈ later.head?, ∃ depth ∈ depths.head?, next.depth ≤ depth := by
  match entries with
  | [] => exact ⟨[], [], rfl, rfl, trivial, nofun⟩
  | entry :: rest =>
    by_cases deeper : ∀ depth ∈ depths.head?, depth < entry.depth
    · obtain ⟨list, later, split, written, filled, nests, ends⟩ := exists_list depths entry rest
      have shorter : later.length < rest.length + 1 := by
        cases list with
        | nil => contradiction
        | cons item items =>
          have lengths := congrArg List.length split
          rw [entriesAll, List.length_cons, List.append_assoc, List.length_append,
            List.length_append] at lengths
          have some := item.entries_length_pos
          omega
      obtain ⟨lists, behind, splitLater, writtenLater, nestsLater, endsLater⟩ :=
        exists_lists depths later
      refine ⟨list :: lists, behind, ?_, ?_, ?_, endsLater⟩
      · rw [split, splitLater, entriesLists, List.append_assoc]
      · rw [contentsFrom_below deeper, List.cons_append, written, writtenLater]
        simp [piecesLists]
      · refine ⟨entry.depth, ⟨deeper, entry, rfl, Nat.le_refl _⟩, filled, nests, nestsLater.imp ?_⟩
        -- what comes behind a list is above it, so the next list inside the item is too
        rintro depth ⟨outer, next, first, low⟩
        have above := ends next first
        exact ⟨⟨outer, entry, rfl, by omega⟩, by omega⟩
    · obtain ⟨outer, notBelow⟩ := Classical.not_forall.mp deeper
      obtain ⟨innermost, low⟩ := Classical.not_imp.mp notBelow
      refine ⟨[], entry :: rest, rfl, rfl, trivial, ?_⟩
      rintro _ ⟨⟩
      exact ⟨outer, innermost, Nat.le_of_not_lt low⟩
termination_by 2 * entries.length

/-- An entry and those behind it down to its depth come to a list. -/
theorem exists_list (depths : List Nat) (entry : ContentsEntry) (rest : List ContentsEntry) :
    ∃ items later, entry :: rest = entriesAll items ++ later ∧
      .text "\n" :: entry.link ++ contentsFrom (entry.depth :: depths) rest =
        piecesAll items ++ [.closing "ol", .text "\n"] ++ contentsFrom depths later ∧
      items ≠ [] ∧ NestsAll entry.depth items ∧ ∀ next ∈ later.head?, next.depth < entry.depth := by
  obtain ⟨lists, later, split, written, nests, ends⟩ := exists_lists (entry.depth :: depths) rest
  have item : (mk entry lists).Nests entry.depth :=
    ⟨rfl, nests.imp fun depth opens => opens.1 entry.depth rfl⟩
  match later with
  | [] =>
    refine ⟨[mk entry lists], [], ?_, ?_, nofun, ⟨item, trivial⟩, nofun⟩
    · simp [split, entriesAll, ContentsItem.entries]
    · simp [written, contentsFrom_nil_cons, closeList, piecesAll, pieces]
  | next :: behind =>
    obtain ⟨_, ⟨⟩, low⟩ := ends next rfl
    rcases Nat.lt_or_eq_of_le low with above | same
    · refine ⟨[mk entry lists], next :: behind, ?_, ?_, nofun, ⟨item, trivial⟩, ?_⟩
      · simp [split, entriesAll, ContentsItem.entries]
      · simp [written, contentsFrom_above above, closeList, piecesAll, pieces]
      · rintro _ ⟨⟩
        exact above
    · have shorter : behind.length < rest.length := by
        rw [split, List.length_append, List.length_cons]
        omega
      obtain ⟨items, later, splitNext, writtenNext, -, nestsNext, endsNext⟩ :=
        exists_list depths next behind
      rw [same] at nestsNext endsNext writtenNext
      refine ⟨mk entry lists :: items, later, ?_, ?_, nofun, ⟨item, nestsNext⟩, endsNext⟩
      · simp [split, splitNext, entriesAll, ContentsItem.entries]
      · rw [written, ← same, contentsFrom_same, same]
        simpa [piecesAll, pieces] using writtenNext
termination_by 2 * rest.length + 1

end

/-- The whole table is a forest. -/
theorem exists_forest (entries : List ContentsEntry) :
    ∃ forest, entriesLists forest = entries ∧ contents entries = piecesLists forest ∧
      NestsLists (fun _ => True) forest := by
  obtain ⟨forest, later, split, written, nests, ends⟩ := exists_lists [] entries
  have done : later = [] := by
    cases later with
    | nil => rfl
    | cons next rest =>
      obtain ⟨_, ⟨⟩, -⟩ := ends next rfl
  subst done
  refine ⟨forest, ?_, ?_, nests.imp fun _ _ => trivial⟩
  · rw [split, List.append_nil]
  · rw [contents, written]
    exact List.append_nil _

end Building

section Owners

/-- The nearest entry above a depth, by its place. -/
def NearestAbove (before : List ContentsEntry) (depth : Nat) : Option Nat → Prop
  | none => ∀ entry ∈ before, depth ≤ entry.depth
  | some place =>
    ∃ front owner between, before = front ++ owner :: between ∧ front.length = place ∧
      owner.depth < depth ∧ ∀ entry ∈ between, depth ≤ entry.depth

theorem NearestAbove.append {before behind : List ContentsEntry} {depth : Nat}
    {owner : Option Nat} (h : NearestAbove before depth owner)
    (deep : ∀ entry ∈ behind, depth ≤ entry.depth) :
    NearestAbove (before ++ behind) depth owner := by
  cases owner with
  | none => exact List.forall_mem_append.mpr ⟨h, deep⟩
  | some place =>
    obtain ⟨front, owner, between, rfl, count, above, under⟩ := h
    exact ⟨front, owner, between ++ behind, by simp, count, above,
      List.forall_mem_append.mpr ⟨under, deep⟩⟩

/-- Behind other entries, every entry is with the nearest one above it. -/
def Enclosed (before : List ContentsEntry) : List (Option Nat × ContentsEntry) → Prop
  | [] => True
  | (owner, entry) :: rest =>
    NearestAbove before entry.depth owner ∧ Enclosed (before ++ [entry]) rest

theorem enclosed_append {before : List ContentsEntry}
    {first second : List (Option Nat × ContentsEntry)} :
    Enclosed before (first ++ second) ↔
      Enclosed before first ∧ Enclosed (before ++ first.map (·.2)) second := by
  induction first generalizing before with
  | nil => simp [Enclosed]
  | cons one rest ih => simp [Enclosed, ih, and_assoc]

theorem Enclosed.nearestAbove {before : List ContentsEntry}
    {placed : List (Option Nat × ContentsEntry)} (h : Enclosed before placed) {i : Nat}
    {owner : Option Nat} {entry : ContentsEntry} (here : placed[i]? = some (owner, entry)) :
    NearestAbove (before ++ (placed.map (·.2)).take i) entry.depth owner := by
  induction placed generalizing before i with
  | nil => contradiction
  | cons one rest ih =>
    cases i with
    | zero =>
      obtain rfl := Option.some.inj here
      simpa using h.1
    | succ i => simpa using ih h.2 here

namespace ContentsItem

mutual

theorem map_placed (owner : Option Nat) (place : Nat) :
    ∀ item : ContentsItem, (item.placed owner place).map (·.2) = item.entries
  | mk entry lists => by
    rw [placed, entries, List.map_cons, map_placedLists _ _ lists]

theorem map_placedAll (owner : Option Nat) (place : Nat) :
    ∀ items, (placedAll owner place items).map (·.2) = entriesAll items
  | [] => rfl
  | item :: rest => by
    rw [placedAll, entriesAll, List.map_append, map_placed _ _ item, map_placedAll _ _ rest]

theorem map_placedLists (owner : Option Nat) (place : Nat) :
    ∀ lists, (placedLists owner place lists).map (·.2) = entriesLists lists
  | [] => rfl
  | list :: rest => by
    rw [placedLists, entriesLists, List.map_append, map_placedAll _ _ list,
      map_placedLists _ _ rest]

end

mutual

theorem Nests.le {depth : Nat} : ∀ {item : ContentsItem}, item.Nests depth →
    ∀ entry ∈ item.entries, depth ≤ entry.depth
  | mk entry lists, h => by
    have deeper : ∀ inner ∈ entriesLists lists, depth ≤ inner.depth :=
      NestsLists.le h.2 fun _ => Nat.le_of_lt
    exact List.forall_mem_cons.mpr ⟨Nat.le_of_eq h.1.symm, deeper⟩

theorem NestsAll.le {depth : Nat} : ∀ {items : List ContentsItem}, NestsAll depth items →
    ∀ entry ∈ entriesAll items, depth ≤ entry.depth
  | [], _ => nofun
  | _ :: _, h => List.forall_mem_append.mpr ⟨h.1.le, NestsAll.le h.2⟩

theorem NestsLists.le {range : Nat → Prop} {bound : Nat} :
    ∀ {lists : List (List ContentsItem)}, NestsLists range lists →
      (∀ depth, range depth → bound ≤ depth) →
      ∀ entry ∈ entriesLists lists, bound ≤ entry.depth
  | [], _, _ => nofun
  | _ :: _, ⟨depth, inside, _, items, behind⟩, bounded => by
    refine List.forall_mem_append.mpr ⟨fun entry mem => ?_, ?_⟩
    · exact Nat.le_trans (bounded depth inside) (NestsAll.le items entry mem)
    · exact NestsLists.le behind fun next h => bounded next h.1

end

mutual

theorem Nests.enclosed {depth : Nat} {owner : Option Nat} {before : List ContentsEntry} :
    ∀ {item : ContentsItem}, item.Nests depth → NearestAbove before depth owner →
      Enclosed before (item.placed owner before.length)
  | mk entry lists, h, nearest => by
    obtain ⟨rfl, inside⟩ := h
    refine ⟨nearest, ?_⟩
    have count : (before ++ [entry]).length = before.length + 1 := by simp
    rw [← count]
    exact NestsLists.enclosed inside fun deeper above =>
      ⟨before, entry, [], rfl, rfl, above, nofun⟩

theorem NestsAll.enclosed {depth : Nat} {owner : Option Nat} {before : List ContentsEntry} :
    ∀ {items : List ContentsItem}, NestsAll depth items → NearestAbove before depth owner →
      Enclosed before (placedAll owner before.length items)
  | [], _, _ => trivial
  | item :: rest, h, nearest => by
    refine enclosed_append.mpr ⟨h.1.enclosed nearest, ?_⟩
    rw [map_placed, ← List.length_append]
    exact NestsAll.enclosed h.2 (nearest.append h.1.le)

theorem NestsLists.enclosed {range : Nat → Prop} {owner : Option Nat}
    {before : List ContentsEntry} :
    ∀ {lists : List (List ContentsItem)}, NestsLists range lists →
      (∀ depth, range depth → NearestAbove before depth owner) →
      Enclosed before (placedLists owner before.length lists)
  | [], _, _ => trivial
  | list :: rest, ⟨depth, inside, _, items, behind⟩, nearest => by
    refine enclosed_append.mpr ⟨NestsAll.enclosed items (nearest depth inside), ?_⟩
    rw [map_placedAll, ← List.length_append]
    -- the lists behind come up, so all of this list is too deep to hold one of them
    refine NestsLists.enclosed behind fun next h => (nearest next h.1).append fun entry mem => ?_
    exact Nat.le_trans (Nat.le_of_lt h.2) (NestsAll.le items entry mem)

end

/-- A list that is not empty and is of one depth. -/
def Level (list : List ContentsItem) : Prop :=
  list ≠ [] ∧ ∃ depth, ∀ item ∈ list, item.depth = depth

mutual

theorem Nests.levels {depth : Nat} : ∀ {item : ContentsItem}, item.Nests depth →
    ∀ list ∈ item.within, Level list
  | mk _ _, h => NestsLists.levels h.2

theorem NestsAll.levels {depth : Nat} : ∀ {items : List ContentsItem}, NestsAll depth items →
    ∀ list ∈ withinAll items, Level list
  | [], _ => nofun
  | _ :: _, h => List.forall_mem_append.mpr ⟨h.1.levels, NestsAll.levels h.2⟩

theorem NestsLists.levels {range : Nat → Prop} : ∀ {lists : List (List ContentsItem)},
    NestsLists range lists → ∀ list ∈ withinLists lists, Level list
  | [], _ => nofun
  | _ :: _, ⟨depth, _, filled, items, behind⟩ =>
    List.forall_mem_append.mpr ⟨List.forall_mem_cons.mpr
      ⟨⟨filled, depth, fun item mem => (nestsAll_iff.mp items item mem).depth_eq⟩,
        NestsAll.levels items⟩, NestsLists.levels behind⟩

end

end ContentsItem

end Owners

/-- The entries of a table of contents come to a forest of lists with all of them in order. Each
stands inside the nearest entry before it of a smaller depth, and a list is of one depth. This
forest is all that a table writes between its tags. -/
theorem contents_nested (entries : List ContentsEntry) :
    ∃ forest : List (List ContentsItem),
      let placed := ContentsItem.placedLists none 0 forest
      contents entries = ContentsItem.piecesLists forest ∧
      placed.map (·.2) = entries ∧
      (∀ (i : Nat) (owner : Option Nat) (entry : ContentsEntry),
        placed[i]? = some (owner, entry) → NearestAbove (entries.take i) entry.depth owner) ∧
      (∀ list ∈ ContentsItem.withinLists forest, ContentsItem.Level list) ∧
      ∀ (context : Context) (title : Option (List Inline)) (maxDepth : UInt8) (cursor : Cursor),
        contentsEntries context maxDepth = entries → entries ≠ [] →
        ((Block.tableOfContents title maxDepth).render context cursor).1.write =
          (Fragment.lineElement "h1" [⟨"id", some "table-of-contents"⟩]
            (contentsTitle context title)).write ++
          "<nav>\n" ++ Piece.writeAll (ContentsItem.piecesLists forest) ++ "</nav>\n" := by
  obtain ⟨forest, inOrder, written, nests⟩ := exists_forest entries
  have placed : (ContentsItem.placedLists none 0 forest).map (·.2) = entries := by
    rw [ContentsItem.map_placedLists, inOrder]
  have enclosed : Enclosed [] (ContentsItem.placedLists none 0 forest) :=
    nests.enclosed fun _ _ => nofun
  refine ⟨forest, written, placed, ?_, nests.levels, ?_⟩
  · intro i owner entry here
    have nearest := enclosed.nearestAbove here
    rwa [placed] at nearest
  · rintro context title maxDepth cursor rfl filled
    have shown : ((Block.tableOfContents title maxDepth).render context cursor).1 =
        tableOfContents context title maxDepth := by simp only [Block.render, leafBlock]
    have tags : Piece.writeAll [.opening "nav" [], .text "\n"] = "<nav>\n" ∧
        Piece.writeAll [.closing "nav", .text "\n"] = "</nav>\n" := by decide
    rw [shown, tableOfContents_of_ne_nil filled, Fragment.write_append,
      Fragment.write_blockElement, tags.1, tags.2, written, String.append_assoc,
      String.append_assoc, String.append_assoc]
    rfl

end Quire.Html
