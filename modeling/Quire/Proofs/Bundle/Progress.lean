import Quire.Proofs.Bundle.Publishing
import Quire.Proofs.Storage.Progress

/-!
# Writing to the end

A resource whose names leave room for each other is written and published whenever its contents can
be loaded, unless a name or a path is too long for the storage.
-/

namespace Quire

namespace Resource

mutual

/-- No name is in the way of another one: members differ in their first segments, a group has one
segment, and a file asks for one directory at most. -/
def HasRoom : Resource → Prop
  | file name type content =>
    (Path.segments (file name type content).fileName).length ≤ 2 ∧ '\x00' ∉ name.toList
  | group name members =>
    '/' ∉ name.toList ∧ '\x00' ∉ name.toList ∧
      (members.map fun member => (Path.segments member.fileName).take 1).Nodup ∧
      haveRoom members

def haveRoom : List Resource → Prop
  | [] => True
  | member :: rest => member.HasRoom ∧ haveRoom rest

end

theorem haveRoom_iff {members : List Resource} :
    haveRoom members ↔ ∀ member ∈ members, member.HasRoom := by
  induction members with
  | nil => exact ⟨fun _ => List.forall_mem_nil _, fun _ => trivial⟩
  | cons member rest ih => rw [haveRoom, ih, List.forall_mem_cons]

theorem HasRoom.nul_notMem {resource : Resource} (h : resource.HasRoom) :
    '\x00' ∉ resource.fileName.toList := by
  cases resource with
  | group name members => exact h.2.1
  | file name type content =>
    rw [fileName, String.append_assoc, String.toList_append, List.mem_append, not_or]
    refine ⟨h.2, ?_⟩
    cases type <;> decide

end Resource

namespace Bundle

variable {storage after : Storage} {catalogue : Catalogue} {directory out : String}
  {place : Storage.Address}

/-- A part of writing succeeds, unless a name or a path is too long. -/
def Writing.Passes {α : Type} (writing : Writing α) (storage : Storage) : Prop :=
  (∃ a after, Writing.on writing storage = (.ok a, after)) ∨
    (Writing.on writing storage).1 = .error (.file .nameTooLong)

section Parts

variable {α β : Type}

theorem passes_bind {first : Writing α} {rest : α → Writing β} (h : first.Passes storage)
    (k : ∀ a after, Writing.on first storage = (.ok a, after) → (rest a).Passes after) :
    (first >>= rest).Passes storage := by
  rw [Writing.Passes, on_bind]
  rcases h with ⟨a, after, done⟩ | long
  · rw [done]
    exact k a after done
  · right
    generalize Writing.on first storage = ran at long
    obtain ⟨result, after⟩ := ran
    dsimp only at long
    rw [long]

theorem passes_perform {action : Storage.Attempt α} {a : α}
    (h : Fits (action.run storage).1 a) : Writing.Passes (perform action) storage := by
  rw [Writing.Passes, on_perform]
  rcases h with done | long
  · exact .inl ⟨a, (action.run storage).2, by rw [done]; rfl⟩
  · exact .inr (by rw [long]; rfl)

theorem passes_attempt {change : Storage → Except FileFault Storage}
    (h : Fits (change storage) after) :
    Writing.Passes (perform (Storage.attempt change)) storage := by
  rw [Writing.Passes, on_attempt]
  rcases h with done | long
  · exact .inl ⟨(), after, by rw [done]; rfl⟩
  · exact .inr (by rw [long]; rfl)

end Parts

section Staged

/-- A file is written where there is nothing at its first segment. -/
theorem passes_writeFile (tree : storage.IsTree) (found : storage.locate directory = .ok place)
    (there : storage.node? place = some .directory) {name : String}
    (ordinary : Path.IsOrdinary name) (short : (Path.segments name).length ≤ 2)
    (noNul : '\x00' ∉ name.toList)
    (free : storage.node? (place ++ (Path.segments name).take 1) = none) (text : String) :
    Writing.Passes (writeFile (Path.join directory name) text) storage := by
  obtain ⟨above, last, names⟩ :=
    (List.eq_nil_or_concat' (Path.segments name)).resolve_left (Path.segments_ne_nil name)
  have init : (Path.segments name).dropLast = above := by rw [names, List.dropLast_concat]
  have few : above.length ≤ 1 := by simpa [names] using short
  have between : ∀ front, front <+: above → front = [] ∨ front = above := by
    intro front less
    by_cases same : front.length = above.length
    · exact .inr (less.eq_of_length same)
    · have length := less.length_le
      exact .inl (List.length_eq_zero_iff.mp (by omega))
  obtain ⟨nonempty, parent⟩ := Storage.fits_locate_parent found ordinary noNul
    fun front less other => by
      rw [(between front (init ▸ less)).resolve_right (init ▸ other), List.append_nil]
      exact there
  rw [init] at parent
  have opened : storage.node? (place ++ above) = none ∨
      storage.node? (place ++ above) = some .directory := by
    cases above with
    | nil => exact .inr (by rw [List.append_nil, there])
    | cons first rest =>
      rw [names, List.cons_append, List.take_succ_cons, List.take_zero] at free
      obtain rfl : rest = [] := List.length_eq_zero_iff.mp (by simpa using few)
      exact .inl free
  have opens := Storage.opens_parent tree found there ordinary
  rw [init] at opens
  obtain ⟨makes, opened⟩ := Storage.fits_makeDirectories nonempty parent opened
  refine passes_bind (passes_perform makes) fun _ after made => ?_
  have made := on_perform_eq_ok made
  rw [made] at opens
  have vacant : after.node? (place ++ Path.segments name) = none := by
    rw [opens.toFills.outside]
    · refine tree.vacant_within free (Storage.isWithin_iff.mpr ?_)
      rw [List.prefix_append_right_inj]
      exact List.take_prefix 1 _
    · rintro ⟨front, less, -, same⟩
      have length := less.length_le
      rw [List.append_cancel_left_eq] at same
      rw [← same, names, List.length_append, List.length_singleton] at length
      omega
  have located := Storage.fits_locate_join (opens.toFills.locate found) ordinary noNul
    fun front less other => by
      rw [names, List.prefix_concat_iff, ← names] at less
      rcases between front (less.resolve_left other) with rfl | rfl
      · rw [List.append_nil]
        exact opens.toFills.directory there
      · exact opened after made
  exact passes_attempt (Storage.fits_writeBytes located vacant
    (Path.hasTrailingSlash_join (Storage.ne_empty_of_locate found) ordinary) text.toUTF8)

/-- What another member touches is not in the way. -/
theorem not_reaches {resource : Resource} {segments : Storage.Address} (nonempty : segments ≠ [])
    (other : (Path.segments resource.fileName).take 1 ≠ segments.take 1) :
    ¬ resource.Reaches place (place ++ segments.take 1) := by
  intro reached
  have own := List.length_pos_iff.mpr (Path.segments_ne_nil resource.fileName)
  have length := List.length_pos_iff.mpr nonempty
  have apart := Storage.apart_of_ne (a := place ++ (Path.segments resource.fileName).take 1)
    (b := place ++ segments.take 1) (by simp only [List.length_append, List.length_take]; omega)
    fun same => other (List.append_cancel_left same)
  rw [Resource.Reaches, apart.1] at reached
  contradiction

mutual

/-- A resource is written where there is nothing at its first segment. -/
theorem passes_writeResource {storage : Storage} {directory : String} {place : Storage.Address}
    (resource : Resource) (ordinary : resource.IsOrdinary) (room : resource.HasRoom)
    (loads : ∀ file ∈ resource.files, ∃ text, contentText catalogue file.2 = .ok text)
    (tree : storage.IsTree) (found : storage.locate directory = .ok place)
    (there : storage.node? place = some .directory)
    (free : storage.node? (place ++ (Path.segments resource.fileName).take 1) = none) :
    Writing.Passes (writeResource catalogue directory resource) storage := by
  cases resource with
  | file name type content =>
    obtain ⟨text, loaded⟩ := loads _ (List.mem_singleton.mpr rfl)
    rw [writeResource]
    refine passes_bind (.inl ⟨text, storage, by rw [on_liftExcept, ← loaded]⟩) ?_
    intro text after load
    rw [on_liftExcept, Prod.mk.injEq] at load
    rw [← load.2]
    exact passes_writeFile tree found there (Resource.isOrdinary_fileName ordinary) room.1
      room.nul_notMem free text
  | group name members =>
    obtain ⟨noSlash, noNul, distinct, inner⟩ := room
    have own := ordinary name List.mem_cons_self
    have single := Path.segments_of_no_slash noSlash
    rw [Resource.fileName, single, List.take_succ_cons, List.take_zero] at free
    have located := Storage.fits_locate_single found own noNul there single
    rw [writeResource]
    refine passes_bind (passes_attempt (Storage.fits_makeDirectory located free)) ?_
    intro _ opened made
    rw [on_makeDirectory] at made
    obtain ⟨opens, located, open_⟩ := opens_group tree found own (outcome_eq_ok made)
    rw [single] at opens located open_
    refine passes_writeMembers members (fun _ mem => Resource.isOrdinary_member ordinary mem)
      (Resource.haveRoom_iff.mp inner) distinct (fun file mem => ?_) opens.tree located open_ ?_
    · exact loads (Path.segments name ++ file.1, file.2) (List.mem_map.mpr ⟨file, mem, rfl⟩)
    · intro member _
      rw [opens.toFills.outside]
      · exact tree.vacant_within free (Storage.isWithin_append _ _)
      · simp [Path.segments_ne_nil]

theorem passes_writeMembers {storage : Storage} {directory : String} {place : Storage.Address}
    (members : List Resource) (ordinary : ∀ member ∈ members, member.IsOrdinary)
    (room : ∀ member ∈ members, member.HasRoom)
    (distinct : (members.map fun member => (Path.segments member.fileName).take 1).Nodup)
    (loads : ∀ file ∈ Resource.filesOf members, ∃ text,
      contentText catalogue file.2 = .ok text)
    (tree : storage.IsTree) (found : storage.locate directory = .ok place)
    (there : storage.node? place = some .directory)
    (free : ∀ member ∈ members,
      storage.node? (place ++ (Path.segments member.fileName).take 1) = none) :
    Writing.Passes (writeMembers catalogue directory members) storage := by
  cases members with
  | nil => exact .inl ⟨(), storage, rfl⟩
  | cons member rest =>
    rw [List.forall_mem_cons] at ordinary room free
    rw [Resource.filesOf, List.forall_mem_append] at loads
    rw [List.map_cons, List.nodup_cons] at distinct
    rw [writeMembers]
    refine passes_bind (passes_writeResource member ordinary.1 room.1 loads.1 tree found there
      free.1) fun _ between wrote => ?_
    have fills := fills_writeResource catalogue member ordinary.1 tree found there
    rw [wrote] at fills
    refine passes_writeMembers rest ordinary.2 room.2 distinct.2 loads.2 fills.tree
      (fills.locate found) (fills.directory there) fun other mem => ?_
    rw [fills.outside, free.2 other mem]
    refine not_reaches (Path.segments_ne_nil _) fun same => distinct.1 ?_
    rw [same]
    exact List.mem_map_of_mem mem

end

end Staged

/-- A bundle that is called neither like the staging directory nor like the bundle before is in the
way of neither. -/
theorem apart_of_differs (place : Storage.Address) {name root : String}
    (differs : root ≠ name ∧ root ≠ previousName) :
    (Storage.isWithin (place ++ [name]) (place ++ [root]) = false ∧
      Storage.isWithin (place ++ [root]) (place ++ [name]) = false) ∧
    Storage.isWithin (place ++ [name] ++ [previousName]) (place ++ [name] ++ [root]) = false ∧
      Storage.isWithin (place ++ [name] ++ [root]) (place ++ [name] ++ [previousName]) = false := by
  refine ⟨Storage.apart_of_ne (by simp) fun same => differs.1 ?_,
    Storage.apart_of_ne (by simp) fun same => differs.2 ?_⟩
  · simpa using same.symm
  · simpa using same.symm

namespace Stages

variable {left between prepared started : Storage} {staging name : String} {resource : Resource}
  (stages : Stages out staging place name prepared started)

include stages

/-- What is staged moves to its place when that is free. -/
theorem move_staged (tree : between.IsTree) {root : String} (ordinary : Path.IsOrdinary root)
    (staged : between.locate (Path.join staging root) = .ok (place ++ [name] ++ [root]))
    (there : (between.node? (place ++ [name] ++ [root])).isSome)
    (target : between.locate (Path.join out root) = .ok (place ++ [root]))
    (free : between.node? (place ++ [root]) = none) :
    ∃ published, between.move (Path.join staging root) (Path.join out root) = .ok published := by
  have named : staging ≠ "" ∧ out ≠ "" :=
    ⟨Storage.ne_empty_of_locate stages.staged, Storage.ne_empty_of_locate stages.located⟩
  exact ⟨_, Storage.move_of_vacant tree named ⟨ordinary, ordinary⟩ staged target there free
    (Storage.not_isWithin_of_length (by simp))⟩

variable (filled : Storage.Fills (resource.Reaches (place ++ [name])) started left)

include filled

/-- The staged resource and its place are found after the bundle before was moved away. -/
theorem locate_of_moves (tree : prepared.IsTree) {root : String} (ordinary : Path.IsOrdinary root)
    (single : Path.segments root = [root]) (differs : root ≠ name ∧ root ≠ previousName)
    (avoids : prepared.Avoids out (place ++ [root]))
    (moves : Storage.Moves (place ++ [root]) (place ++ [name] ++ [previousName]) left between)
    (staged : left.locate (Path.join staging root) = .ok (place ++ [name] ++ [root]))
    (target : left.locate (Path.join out root) = .ok (place ++ [root])) :
    between.locate (Path.join staging root) = .ok (place ++ [name] ++ [root]) ∧
      between.locate (Path.join out root) = .ok (place ++ [root]) := by
  have out_ := stages.locate_out filled
  have staging_ := stages.locate_staging filled
  have way : ∀ front, front <+: Path.walk out →
      between.node? (Path.leads (prepared.origin out) front) = some .directory := by
    intro front less
    obtain ⟨there, outside⟩ := stages.way tree less
    rw [moves.elsewhere (avoids front less)
      (Storage.not_isWithin_of_isWithin (Storage.isWithin_append _ _) outside)]
    exact filled.directory (stages.opens.toFills.directory there)
  have opened : between.node? (place ++ [name]) = some .directory := by
    rw [moves.elsewhere (apart_of_differs place differs).1.2 (Storage.not_isWithin_of_length (by simp))]
    exact filled.directory stages.opened
  have current : left.current = prepared.current := filled.current.trans stages.opens.current
  have origin := stages.origin current
  constructor
  · refine Storage.locate_of_way staged moves.current fun front less other => ?_
    rw [Path.walk_join (Storage.ne_empty_of_locate staging_) ordinary, single, List.map_singleton]
      at less other
    rw [Storage.origin_join staging_ ordinary, origin]
    have less := (List.prefix_concat_iff.mp less).resolve_left other
    rw [stages.walk, List.prefix_concat_iff] at less
    rcases less with rfl | less
    · rw [Path.leads_append, ← Storage.target, ← Storage.eq_target_of_locate stages.located]
      exact opened
    · exact way front less
  · refine Storage.locate_of_way target moves.current fun front less other => ?_
    rw [Path.walk_join (Storage.ne_empty_of_locate out_) ordinary, single, List.map_singleton]
      at less other
    rw [Storage.origin_join out_ ordinary, Storage.origin, current, ← Storage.origin]
    exact way front ((List.prefix_concat_iff.mp less).resolve_left other)

/-- The place for the bundle before is free. -/
theorem node?_previous (tree : prepared.IsTree)
    (single : Path.segments resource.fileName = [resource.fileName])
    (differs : resource.fileName ≠ name ∧ resource.fileName ≠ previousName) :
    left.node? (place ++ [name] ++ [previousName]) = none := by
  rw [filled.outside, stages.opens.toFills.outside]
  · exact tree.vacant_within stages.free (Storage.isWithin_append _ _)
  · simp
  · rw [Resource.Reaches, single, List.take_succ_cons, List.take_zero, (apart_of_differs place differs).2.2]
    exact Bool.false_ne_true

section Publish

variable (tree : prepared.IsTree) {root : String} (ordinary : Path.IsOrdinary root)
  (single : Path.segments root = [root]) (differs : root ≠ name ∧ root ≠ previousName)
  (avoids : prepared.Avoids out (place ++ [root]))
  (staged : left.locate (Path.join staging root) = .ok (place ++ [name] ++ [root]))
  (there : (left.node? (place ++ [name] ++ [root])).isSome)
  (spare : left.node? (place ++ [name] ++ [previousName]) = none)

include tree ordinary single differs avoids staged there spare

/-- The bundle before moves away, and what is staged takes its place. -/
theorem move_both (target : left.locate (Path.join out root) = .ok (place ++ [root]))
    (taken : (left.node? (place ++ [root])).isSome)
    (previous : left.locate (Path.join staging previousName) =
      .ok (place ++ [name] ++ [previousName])) :
    ∃ between published,
      left.move (Path.join out root) (Path.join staging previousName) = .ok between ∧
        between.move (Path.join staging root) (Path.join out root) = .ok published := by
  have named : out ≠ "" ∧ staging ≠ "" :=
    ⟨Storage.ne_empty_of_locate stages.located, Storage.ne_empty_of_locate stages.staged⟩
  have apart := (apart_of_differs place differs).1
  have backed := Storage.move_of_vacant filled.tree named ⟨ordinary, by decide⟩ target previous
    taken spare (Storage.not_isWithin_append apart [previousName])
  obtain ⟨-, -, moves⟩ := Storage.of_move filled.tree backed
  rw [← Storage.eq_target_of_locate target, ← Storage.eq_target_of_locate previous] at moves
  have moves := moves.resolve_left fun same => by simpa using congrArg List.length same.1
  obtain ⟨staged, target⟩ :=
    stages.locate_of_moves filled tree ordinary single differs avoids moves staged target
  rw [← moves.elsewhere (Storage.not_isWithin_append apart [root]) (apart_of_differs place differs).2.1]
    at there
  obtain ⟨published, done⟩ := stages.move_staged (moves.tree filled.tree) ordinary staged there
    target (moves.gone (Storage.isWithin_iff.mpr (List.prefix_refl _)))
  exact ⟨_, published, backed, done⟩

/-- A staged resource can be published unless its name is taken while it waits, the way to the
directory leads through its place, or a path is too long. -/
theorem passes_publish (noNul : '\x00' ∉ root.toList) :
    Writing.Passes (publish staging (Path.join staging root) (Path.join out root)) left := by
  have out_ := stages.locate_out filled
  have staging_ := stages.locate_staging filled
  have target := Storage.fits_locate_single out_ ordinary noNul
    (filled.directory (stages.opens.toFills.directory stages.there)) single
  have own : Path.IsOrdinary previousName := by decide
  have previous := Storage.fits_locate_single staging_ own (by decide)
    (filled.directory stages.opened) (Path.segments_of_no_slash (by decide))
  rw [publish]
  refine passes_bind (.inl ⟨_, _, on_lift _⟩) fun found after looked => ?_
  rw [on_lift, Prod.mk.injEq, Except.ok.injEq] at looked
  obtain ⟨rfl, rfl⟩ := looked
  change Writing.Passes (if left.contains (Path.join out root) = true then _ else _) left
  rcases target with target | long
  · have plain :=
      Path.hasTrailingSlash_join (Storage.ne_empty_of_locate out_) ordinary
    rw [Storage.contains_eq_isSome target plain]
    split
    · rename_i taken
      rcases previous with previous | long
      · obtain ⟨between, published, backed, done⟩ := stages.move_both filled tree ordinary single
          differs avoids staged there spare target taken previous
        refine .inl ⟨(), published, ?_⟩
        rw [on_bind, on_move, backed, outcome]
        dsimp only
        rw [on_bind, on_lift, run_move, Storage.attempt, done]
        rfl
      · right
        rw [on_bind, on_move, Storage.move_of_nameTooLong target long]
        rfl
    · rename_i free
      obtain ⟨published, moved⟩ := stages.move_staged filled.tree ordinary staged there target
        (by simpa using free)
      exact passes_attempt (.inl moved)
  · have absent : left.contains (Path.join out root) = false := by
      rw [Storage.contains, Storage.find, long]
      rfl
    rw [absent, if_neg Bool.false_ne_true]
    have refused : Fits (left.move (Path.join staging root) (Path.join out root)) left :=
      .inr (Storage.move_of_nameTooLong staged long)
    exact passes_attempt refused

end Publish

end Stages

section Written

theorem passes_clearing {α : Type} {action : Writing α} (h : action.Passes storage) :
    Writing.Passes (clearing directory action) storage := by
  rw [Writing.Passes, on_clearing]
  rcases h with ⟨a, after, done⟩ | long
  · exact .inl ⟨a, cleared after directory, by rw [done]⟩
  · exact .inr long

/-- A staging directory comes up in a directory that is there. -/
theorem fits_makeFreshDirectory (located : storage.locate out = .ok place)
    (there : storage.node? place = some .directory) :
    ∃ staging, Fits ((Disk.makeFreshDirectory out stagingStem :
      Storage.Attempt String).run storage).1 staging := by
  have plain := isStagingName_freshSuffix storage place
  have made := Storage.fits_makeDirectory
    (Storage.fits_locate_single located plain.ordinary plain.noNul there plain.single)
    (storage.node?_freshSuffix place stagingStem)
  refine ⟨Path.join out (stagingStem ++ storage.freshSuffix place stagingStem), ?_⟩
  rw [run_makeFreshDirectory, Storage.makeFreshDirectory, located]
  dsimp only
  rcases made with made | long
  · rw [made]
    exact .inl rfl
  · rw [long]
    exact .inr rfl

/-- A resource with room for its names is written into a directory that is there whenever its
contents can be loaded, unless a name or a path is too long. Its own name may be any that is not
taken while it waits. -/
theorem passes_write {resource : Resource} (tree : storage.IsTree) (ordinary : resource.IsOrdinary)
    (room : resource.HasRoom) (single : Path.segments resource.fileName = [resource.fileName])
    (there : storage.isDirectory out = true)
    (differs : resource.fileName ≠
      stagingStem ++ storage.freshSuffix (storage.target out) stagingStem ∧
        resource.fileName ≠ previousName)
    (avoids : storage.Avoids out (storage.target out ++ [resource.fileName]))
    (loads : ∀ file ∈ resource.files, ∃ text, contentText catalogue file.2 = .ok text) :
    Writing.Passes (write catalogue resource out) storage := by
  obtain ⟨place, located, opened⟩ := Storage.isDirectory_iff.mp there
  obtain rfl := Storage.eq_target_of_locate located
  have made := Storage.makeDirectories_of_isDirectory there
  rw [write]
  refine passes_bind (passes_perform (a := ()) (.inl (by rw [made]))) fun _ prepared ready => ?_
  obtain rfl : storage = prepared := by
    have same := on_perform_eq_ok ready
    rw [made] at same
    exact (Prod.mk.inj same).2
  obtain ⟨fresh, fits⟩ := fits_makeFreshDirectory located opened
  refine passes_bind (passes_perform fits) fun staging started begun => ?_
  obtain ⟨place, stages⟩ := stages_of_makeFreshDirectory tree (on_perform_eq_ok begun)
  obtain rfl := Storage.eq_target_of_locate stages.located
  generalize stagingStem ++ storage.freshSuffix (storage.target out) stagingStem = name
    at stages differs
  have own := Resource.isOrdinary_fileName ordinary
  refine passes_clearing (passes_bind (passes_writeResource resource ordinary room loads
    stages.opens.tree stages.staged stages.opened ?_) fun _ left wrote => ?_)
  · rw [stages.opens.toFills.outside]
    · exact tree.vacant_within stages.free (Storage.isWithin_append _ _)
    · simp [Path.segments_ne_nil]
  · have filled := stages.fills catalogue ordinary
    rw [wrote] at filled
    obtain ⟨-, placed, found⟩ :=
      of_writeResource resource ordinary stages.opens.tree stages.staged stages.opened wrote
    rw [single] at placed found
    exact passes_bind (stages.passes_publish filled tree own single differs avoids found placed
      (stages.node?_previous filled tree single differs) room.nul_notMem)
      fun _ published _ => .inl ⟨_, published, rfl⟩

end Written

end Bundle
end Quire
