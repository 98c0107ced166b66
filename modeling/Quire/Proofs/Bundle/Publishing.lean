import Quire.Proofs.Bundle.Staging
import Quire.Proofs.Storage.Moves

/-!
# Publishing

What a write that succeeds leaves: the staged resource is in its place, the bundle before is gone,
and so is the staging directory.
-/

namespace Quire

namespace Bundle

variable {left between published : Storage}

theorem on_lift {α : Type} (action : StateM Storage α) :
    Writing.on (liftM action) left = (.ok (action.run left).1, (action.run left).2) := rfl

theorem run_move (source target : String) :
    (Disk.move source target : Storage.Attempt Unit).run left =
      Storage.attempt (·.move source target) left := rfl

/-- A success of publishing is a move to a free place. What was there has been moved away. -/
theorem moves_of_publish {staging staged target : String}
    (done : Writing.on (publish staging staged target) left = (.ok (), published)) :
    ∃ between, between.move staged target = .ok published ∧
      (left.contains target = false ∧ between = left ∨
        left.move target (Path.join staging previousName) = .ok between) := by
  rw [publish] at done
  obtain ⟨there, _, looked, done⟩ := on_bind_eq_ok done
  rw [on_lift, Prod.mk.injEq, Except.ok.injEq] at looked
  obtain ⟨rfl, rfl⟩ := looked
  change Writing.on (if left.contains target = true then _ else _) left = _ at done
  split at done
  · obtain ⟨_, between, moved, done⟩ := on_bind_eq_ok done
    rw [on_move] at moved
    refine ⟨between, ?_, .inr (outcome_eq_ok moved)⟩
    obtain ⟨result, after, tried, done⟩ := on_bind_eq_ok done
    rw [on_lift, run_move, Prod.mk.injEq, Except.ok.injEq] at tried
    obtain ⟨rfl, rfl⟩ := tried
    rw [Storage.attempt] at done
    cases tried : between.move staged target with
    | ok changed =>
      rw [tried] at done
      exact congrArg _ (Prod.mk.inj done).2
    | error fault =>
      -- the earlier bundle moves back, and the write fails either way
      rw [tried] at done
      obtain ⟨_, _, _, thrown⟩ := on_bind_eq_ok done
      have thrown := (Prod.mk.inj thrown).1
      contradiction
  · rename_i absent
    rw [on_move] at done
    exact ⟨left, outcome_eq_ok done, .inl ⟨by simpa using absent, rfl⟩⟩

section Places

variable {top staged target spare at_ : Storage.Address}

/-- A place is free for what is staged. What was there may have come into the staging directory, but
nothing else has changed. -/
structure Frees (top staged target : Storage.Address) (before after : Storage) : Prop where
  current : after.current = before.current
  tree : after.IsTree
  free : after.node? target ≠ some .directory
  kept : ∀ below, after.node? (staged ++ below) = before.node? (staged ++ below)
  elsewhere : ∀ at_, Storage.isWithin top at_ = false → Storage.isWithin target at_ = false →
    after.node? at_ = before.node? at_

theorem frees_of_moves (tree : left.IsTree) (moves : Storage.Moves target spare left between)
    (inside : Storage.isWithin top spare = true)
    (other : Storage.isWithin target staged = false ∧ Storage.isWithin staged target = false)
    (apart : Storage.isWithin spare staged = false ∧ Storage.isWithin staged spare = false) :
    Frees top staged target left between := by
  refine ⟨moves.current, moves.tree tree, ?_, fun below => ?_, fun at_ out away => ?_⟩
  · rw [moves.gone (Storage.isWithin_iff.mpr (List.prefix_refl _))]
    nofun
  · exact moves.elsewhere (Storage.not_isWithin_append other.symm below)
      (Storage.not_isWithin_append apart.symm below)
  · exact moves.elsewhere away (Storage.not_isWithin_of_isWithin inside out)

/-- What is staged comes to its place, and apart from that nothing changes outside the staging
directory. -/
structure Replaces (top staged target : Storage.Address) (before after : Storage) : Prop where
  current : after.current = before.current
  arrived : ∀ below, after.node? (target ++ below) = before.node? (staged ++ below)
  elsewhere : ∀ at_, Storage.isWithin top at_ = false → Storage.isWithin target at_ = false →
    after.node? at_ = before.node? at_

theorem replaces_of_moves (frees : Frees top staged target left between)
    (moves : Storage.Moves staged target between published)
    (inside : Storage.isWithin top staged = true) :
    Replaces top staged target left published := by
  refine ⟨moves.current.trans frees.current, fun below => ?_, fun at_ out away => ?_⟩
  · rw [moves.arrived, frees.kept]
  · rw [moves.elsewhere (Storage.not_isWithin_of_isWithin inside out) away,
      frees.elsewhere at_ out away]

end Places

namespace Stages

variable {prepared started final : Storage} {out staging name root : String}
  {place : Storage.Address} {resource : Resource}
  (stages : Stages out staging place name prepared started)
  (filled : Storage.Fills (resource.Reaches (place ++ [name])) started left)
  (ordinary : Path.IsOrdinary root) (single : Path.segments root = [root])

include stages filled

theorem locate_out : left.locate out = .ok place :=
  filled.locate (stages.opens.toFills.locate stages.located)

theorem locate_staging : left.locate staging = .ok (place ++ [name]) :=
  filled.locate stages.staged

include ordinary single

/-- What is moved where in order to publish. -/
theorem moves
    (done : Writing.on (publish staging (Path.join staging root) (Path.join out root)) left =
      (.ok (), published))
    (spare : root = previousName → ∃ at_,
      Storage.isWithin (place ++ [name] ++ [root]) at_ = true ∧ at_ ≠ place ++ [name] ++ [root] ∧
        (left.node? at_).isSome) :
    ∃ between, Frees (place ++ [name]) (place ++ [name] ++ [root]) (place ++ [root]) left between ∧
      between.locate (Path.join staging root) = .ok (place ++ [name] ++ [root]) ∧
      Storage.Moves (place ++ [name] ++ [root]) (place ++ [root]) between published := by
  obtain ⟨between, moved, before⟩ := moves_of_publish done
  have source : left.target (Path.join staging root) = place ++ [name] ++ [root] := by
    rw [Storage.target_join (stages.locate_staging filled) ordinary, single]
  have target : left.target (Path.join out root) = place ++ [root] := by
    rw [Storage.target_join (stages.locate_out filled) ordinary, single]
  have longer : place ++ [name] ++ [root] ≠ place ++ [root] := by simp
  have previous : left.target (Path.join staging previousName) =
      place ++ [name] ++ [previousName] := by
    rw [Storage.target_join (stages.locate_staging filled) (by decide),
      Path.segments_of_no_slash (by decide)]
  -- what the second move says, once the first one has kept the tree
  have second : between.IsTree → between.current = left.current →
      between.locate (Path.join staging root) = .ok (place ++ [name] ++ [root]) ∧
        between.locate (Path.join out root) = .ok (place ++ [root]) ∧
        Storage.Moves (place ++ [name] ++ [root]) (place ++ [root]) between published := by
    intro tree current
    have both := Storage.of_move tree moved
    rw [Storage.target_congr current, Storage.target_congr current, source, target] at both
    exact ⟨both.1, both.2.1, both.2.2.resolve_left fun same => longer same.1⟩
  rcases before with ⟨absent, rfl⟩ | backed
  · obtain ⟨start, end_, moves⟩ := second filled.tree rfl
    refine ⟨between, ⟨rfl, filled.tree, fun there => ?_, fun _ => rfl, fun _ _ _ => rfl⟩, start,
      moves⟩
    have found := Storage.find_eq_directory_iff.mpr ⟨_, end_, there⟩
    rw [Storage.contains, found] at absent
    exact Bool.noConfusion absent
  · obtain ⟨-, -, same | first⟩ := Storage.of_move filled.tree backed
    · rw [target, previous] at same
      exact absurd same.1 (by simp)
    · rw [target, previous] at first
      obtain ⟨start, -, moves⟩ := second (first.tree filled.tree) first.current
      refine ⟨between, frees_of_moves filled.tree first (Storage.isWithin_append _ _)
        moves.apart.symm (Storage.apart_of_ne (by simp) fun same => ?_), start, moves⟩
      rw [List.append_cancel_left_eq, List.singleton_inj] at same
      obtain ⟨at_, inside, other, there⟩ := spare same.symm
      rw [← same] at inside other
      rw [first.vacant at_ inside other] at there
      exact Bool.noConfusion there

/-- A success of publishing, seen from what was before: the staged resource is in its place, and
nothing else has changed. -/
theorem settles (tree : prepared.IsTree)
    (done : Writing.on (publish staging (Path.join staging root) (Path.join out root)) left =
      (.ok (), published))
    (spare : root = previousName → ∃ at_,
      Storage.isWithin (place ++ [name] ++ [root]) at_ = true ∧ at_ ≠ place ++ [name] ++ [root] ∧
        (left.node? at_).isSome) :
    (cleared published staging).locate out = .ok place ∧
      (∀ below, (cleared published staging).node? (place ++ [root] ++ below) =
        left.node? (place ++ [name] ++ [root] ++ below)) ∧
      ∀ at_, Storage.isWithin (place ++ [root]) at_ = false →
        (cleared published staging).node? at_ = prepared.node? at_ := by
  obtain ⟨between, frees, located, moves⟩ := stages.moves filled ordinary single done spare
  have replaces := replaces_of_moves frees moves (Storage.isWithin_append _ _)
  have apart : Storage.isWithin (place ++ [name]) (place ++ [root]) = false ∧
      Storage.isWithin (place ++ [root]) (place ++ [name]) = false := by
    refine Storage.apart_of_ne (by simp) fun same => ?_
    have inside := moves.apart.2
    rw [← same, Storage.isWithin_append] at inside
    exact Bool.noConfusion inside
  have current : between.current = prepared.current :=
    frees.current.trans (filled.current.trans stages.opens.current)
  obtain ⟨onWay, there⟩ := stages.passed current ordinary located
  have way : ∀ front, front <+: Path.walk out →
      published.node? (Path.leads (prepared.origin out) front) = some .directory := by
    intro front less
    have there := onWay front less
    have outside := (stages.way tree less).2
    rw [moves.elsewhere (Storage.not_isWithin_of_isWithin (Storage.isWithin_append _ _) outside)
      (frees.tree.not_isWithin frees.free there), there]
  have opened : published.node? (place ++ [name]) = some .directory := by
    rw [moves.elsewhere (Storage.not_isWithin_of_length (by simp)) apart.2, there]
  have staged : published.locate staging = .ok (place ++ [name]) := by
    refine Storage.locate_of_way stages.staged
      (replaces.current.trans filled.current) fun front less other => ?_
    rw [stages.origin stages.opens.current]
    rw [stages.walk, List.prefix_concat_iff, ← stages.walk] at less
    exact way front (less.resolve_left other)
  have removed : cleared published staging = published.removeAt (place ++ [name]) :=
    cleared_eq staged (by rw [opened]; rfl)
  have proper : place ++ [name] ≠ [] := by simp
  rw [removed]
  refine ⟨?_, fun below => ?_, fun at_ away => ?_⟩
  · refine Storage.locate_of_way stages.located (moves.current.trans current)
      fun front less other => ?_
    rw [Storage.node?_removeAt proper, (stages.way tree less).2, if_neg Bool.false_ne_true,
      way front less]
  · rw [Storage.node?_removeAt proper, Storage.not_isWithin_append apart.symm,
      if_neg Bool.false_ne_true, replaces.arrived]
  · rw [Storage.node?_removeAt proper]
    cases inside : Storage.isWithin (place ++ [name]) at_ with
    | true => exact (tree.vacant_within stages.free inside).symm
    | false =>
      rw [if_neg Bool.false_ne_true, replaces.elsewhere at_ inside away,
        stages.elsewhere filled inside]

end Stages

section Results

variable {storage final : Storage} {catalogue : Catalogue} {resource : Resource}
  {out path : String}

/-- Files have an ending, so only a group can be called what the bundle before is called. -/
theorem members_of_previousName (h : resource.fileName = previousName) :
    ∃ members, resource = .group previousName members := by
  cases resource with
  | group name members => exact ⟨members, by rw [← h]; rfl⟩
  | file name type content =>
    have suffix : ("." ++ type.ending).toList <:+ previousName.toList := by
      refine ⟨name.toList, ?_⟩
      rw [← h, Resource.fileName, String.append_assoc, ← String.toList_append]
    cases type <;> exact absurd suffix (by decide)

/-- What a success of writing says about its stages. -/
theorem stages_of_write (written : Writing.on (write catalogue resource out) storage =
    (.ok path, final)) :
    ∃ prepared staging started left published,
      (Disk.makeDirectories out : Storage.Attempt Unit).run storage = (.ok (), prepared) ∧
      (Disk.makeFreshDirectory out stagingStem : Storage.Attempt String).run prepared =
        (.ok staging, started) ∧
      Writing.on (writeResource catalogue staging resource) started = (.ok (), left) ∧
      Writing.on (publish staging (Path.join staging resource.fileName)
        (Path.join out resource.fileName)) left = (.ok (), published) ∧
      path = Path.join out resource.fileName ∧ final = cleared published staging := by
  rw [write] at written
  obtain ⟨_, prepared, made, written⟩ := on_bind_eq_ok written
  obtain ⟨staging, started, fresh, written⟩ := on_bind_eq_ok written
  rw [on_clearing] at written
  generalize ran : Writing.on (stage catalogue resource out staging) started = staged at written
  obtain ⟨result, published⟩ := staged
  obtain ⟨rfl, rfl⟩ := Prod.mk.inj written
  rw [stage] at ran
  obtain ⟨_, left, wrote, ran⟩ := on_bind_eq_ok ran
  obtain ⟨_, _, published, ran⟩ := on_bind_eq_ok ran
  rw [on_pure, Prod.mk.injEq, Except.ok.injEq] at ran
  obtain ⟨rfl, rfl⟩ := ran
  exact ⟨prepared, staging, started, left, _, on_perform_eq_ok made, on_perform_eq_ok fresh, wrote,
    published, rfl, rfl⟩

/-- The storage after a success: the bundle is what was written, and nothing else has changed. -/
theorem of_write (tree : storage.IsTree) (ordinary : resource.IsOrdinary)
    (single : '/' ∉ resource.fileName.toList) (other : resource ≠ .group previousName [])
    (written : Writing.on (write catalogue resource out) storage = (.ok path, final)) :
    path = Path.join out resource.fileName ∧
      Storage.Keeps
        (fun at_ => Storage.isWithin (storage.target out ++ [resource.fileName]) at_ = false)
        out storage final ∧
      (∀ file ∈ resource.files, ∃ text, contentText catalogue file.2 = .ok text) ∧
      ∀ below, final.file? (storage.target out ++ resource.fileName :: below) =
        contents catalogue resource.files (resource.fileName :: below) := by
  obtain ⟨prepared, staging, started, left, published, made, fresh, wrote, publishes, rfl, rfl⟩ :=
    stages_of_write written
  have opens := Storage.opens_makeDirectories tree out
  rw [made] at opens
  obtain ⟨place, stages⟩ := stages_of_makeFreshDirectory opens.tree fresh
  generalize stagingStem ++ prepared.freshSuffix place stagingStem = name at stages
  obtain rfl : place = storage.target out :=
    (Storage.eq_target_of_locate stages.located).trans (Storage.target_congr opens.current out)
  have filled := stages.fills catalogue ordinary
  rw [wrote] at filled
  have own := Resource.isOrdinary_fileName ordinary
  have segments := Path.segments_of_no_slash single
  have spare : resource.fileName = previousName → ∃ at_,
      Storage.isWithin (storage.target out ++ [name] ++ [resource.fileName]) at_ = true ∧
        at_ ≠ storage.target out ++ [name] ++ [resource.fileName] ∧ (left.node? at_).isSome := by
    intro same
    obtain ⟨members, rfl⟩ := members_of_previousName same
    obtain ⟨member, rest, rfl⟩ := List.exists_cons_of_ne_nil fun none : members = [] =>
      other (by rw [none])
    obtain ⟨opened, opens, located, there, wrote⟩ := of_writeGroup stages.opens.tree stages.staged
      (ordinary previousName List.mem_cons_self) wrote
    have placed := (of_writeMembers _ (fun _ mem => Resource.isOrdinary_member ordinary mem)
      opens.tree located there wrote).2 member List.mem_cons_self
    rw [Path.segments_of_no_slash (by decide)] at placed
    exact ⟨_, Storage.isWithin_append _ _, by simp [Path.segments_ne_nil], placed⟩
  obtain ⟨located, arrived, elsewhere⟩ :=
    stages.settles filled own segments opens.tree publishes spare
  obtain ⟨holds, -⟩ :=
    of_writeResource resource ordinary stages.opens.tree stages.staged stages.opened wrote
  refine ⟨rfl, ?_, holds.loads, fun below => ?_⟩
  · refine (Storage.keeps_makeDirectories tree made stages.located stages.there).trans ?_ ?_
      elsewhere
    · rw [located, stages.located]
    · exact elsewhere _ (Storage.not_isWithin_of_length (by simp))
  · have moved := arrived below
    rw [List.append_assoc, List.append_assoc, List.singleton_append] at moved
    rw [Storage.file?, moved, ← Storage.file?, holds.held, overlay_shift, contents]
    congr 1
    exact funext (stages.file?_staged opens.tree)

/-- A write that succeeds publishes every file that is not written again, and no other file, and
leaves alone what is not in the place of the bundle, whatever free name is drawn for the staging
directory. -/
theorem write_publishes_files (tree : storage.IsTree) (ordinary : resource.IsOrdinary)
    (single : '/' ∉ resource.fileName.toList) (other : resource ≠ .group previousName [])
    (written : Writing.on (write catalogue resource out) storage = (.ok path, final)) :
    (∀ before after path content, resource.files = before ++ (path, content) :: after →
      path ∉ after.map Prod.fst → ∃ text, contentText catalogue content = .ok text ∧
        final.node? (storage.target out ++ path) = some (.file text.toUTF8)) ∧
      (∀ below bytes,
        final.node? (storage.target out ++ resource.fileName :: below) = some (.file bytes) →
          resource.fileName :: below ∈ resource.files.map Prod.fst) ∧
      Storage.Keeps
        (fun at_ => Storage.isWithin (storage.target out ++ [resource.fileName]) at_ = false)
        out storage final ∧
      (storage.isDirectory out = true ∨ .parent ∉ Path.walk out → Storage.KeepsInside
        (fun at_ => Storage.isWithin (storage.target out ++ [resource.fileName]) at_ = false)
        out storage final) := by
  obtain ⟨-, keeps, loads, held⟩ := of_write tree ordinary single other written
  refine ⟨fun before after path content listed last => ?_, fun below bytes found => ?_, keeps,
    keeps.inside⟩
  · have mem : (path, content) ∈ resource.files := by
      rw [listed]
      exact List.mem_append_right _ List.mem_cons_self
    obtain ⟨text, loaded⟩ := loads _ mem
    obtain ⟨below, whole⟩ := Resource.exists_below_of_mem_files mem
    rw [Path.segments_of_no_slash single, List.singleton_append] at whole
    refine ⟨text, loaded, Storage.file?_eq_some_iff.mp ?_⟩
    rw [show path = _ from whole] at listed last ⊢
    rw [held, listed, contents_last last, bytes?, loaded]
    rfl
  · by_contra absent
    rw [← Storage.file?_eq_some_iff, held, contents_of_notMem absent] at found
    contradiction

/-- A bundle with a script takes the place of one with a stale file. -/
theorem write_publishes_script_over_stale :
    let storage : Storage := { entries := [(["out"], .directory), (["out", "doc"], .directory),
      (["out", "doc", "stale.txt"], .file "old".toUTF8)] }
    let resource : Resource := .group "doc" [.file "index" .html (.text "new"),
      .group "script" [.file "script" .javascript (.entry "script/script.js")]]
    let catalogue := Catalogue.ofRegistry ⟨[("script/script.js", "init();")]⟩
    ∃ final, Writing.on (write catalogue resource "out") storage = (.ok "out/doc", final) ∧
      final.node? ["out", "doc", "script", "script.js"] = some (.file "init();".toUTF8) ∧
      ∀ bytes, final.node? ["out", "doc", "stale.txt"] ≠ some (.file bytes) := by
  intro storage resource catalogue
  generalize ran : Writing.on (write catalogue resource "out") storage = result
  have done : result.1 = .ok "out/doc" := by
    rw [← ran]
    decide +kernel
  have written : Writing.on (write catalogue resource "out") storage =
      (.ok "out/doc", result.2) := by
    rw [ran, ← done]
  have tree : storage.IsTree := by decide
  have ordinary : resource.IsOrdinary := by decide
  obtain ⟨held, only, -⟩ :=
    write_publishes_files tree ordinary (by decide) (by simp [resource, previousName]) written
  have place : storage.target "out" = ["out"] := by decide +kernel
  have files : resource.files = [(["doc", "index.html"], .text "new"),
      (["doc", "script", "script.js"], .entry "script/script.js")] := by decide +kernel
  rw [place] at held only
  obtain ⟨text, loaded, found⟩ := held [_] [] _ _ files List.not_mem_nil
  obtain rfl : "init();" = text := Except.ok.inj loaded
  refine ⟨_, Prod.ext done rfl, found, fun bytes stale => ?_⟩
  have listed := only ["stale.txt"] bytes stale
  rw [files] at listed
  exact absurd listed (by decide)

/-- A bundle can be called like a staging directory, if another name is drawn for that. -/
example :
    let drawn : List Storage.Suffix := [⟨"0", by decide, by decide⟩, ⟨"k3v", by decide, by decide⟩]
    let taken : List (Storage.Address × StorageNode) :=
      [(["out"], .directory), (["out", ".folio-0"], .directory)]
    let resource : Resource := .group ".folio-0" [.file "index" .html (.text "new")]
    let ran := Writing.on (write (Catalogue.ofRegistry {}) resource "out") { entries := taken, drawn }
    ran.1 = .ok "out/.folio-0" ∧
      ran.2.node? ["out", ".folio-0", "index.html"] = some (.file "new".toUTF8) := by
  decide +kernel

/-- Names that differ in every group can still meet on disk: a name with a slash leads into the
group beside it, and the file that is written last takes the place of the other one. -/
theorem slash_overwrites_member_beside :
    let inner : List Resource := [.file "b" .css (.text "first")]
    let outer : List Resource := [.group "a" inner, .file "a/b" .css (.text "second")]
    let ran := Writing.on (write (Catalogue.ofRegistry {}) (.group "doc" outer) "out") {}
    (Resource.group? "a" inner).isOk ∧ (Resource.group? "doc" outer).isOk ∧
      (Resource.group "doc" outer).IsOrdinary ∧ ran.1 = .ok "out/doc" ∧
      (["doc", "a", "b.css"], .text "first") ∈ (Resource.group "doc" outer).files ∧
      ran.2.node? ["out", "doc", "a", "b.css"] = some (.file "second".toUTF8) := by
  decide +kernel

/-- A bundle that is empty and called what the bundle before is called while it waits keeps that one
in place. -/
theorem empty_previous_keeps_stale :
    let storage : Storage := { entries := [(["out"], .directory),
      (["out", previousName], .directory),
      (["out", previousName, "stale.txt"], .file "old".toUTF8)] }
    let ran := Writing.on (write (Catalogue.ofRegistry {}) (.group previousName []) "out") storage
    storage.IsTree ∧ (Resource.group previousName []).IsOrdinary ∧ ran.1 = .ok "out/.previous" ∧
      ran.2.node? ["out", previousName, "stale.txt"] = some (.file "old".toUTF8) := by
  decide +kernel

end Results

end Bundle
end Quire
