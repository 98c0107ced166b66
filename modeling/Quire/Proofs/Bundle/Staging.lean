import Quire.Proofs.Bundle.Files
import Quire.Proofs.Text.Cut

/-!
# Staging

A bundle is written into a directory of its own under a fresh name. Whatever fails there, removing
that directory restores what was before.
-/

namespace Quire

namespace Storage

variable {storage before after : Storage} {P : Address → Prop}

/-- After something was done in a directory, the directory is there, and of the addresses in
question none has changed. Only the directory itself and those on the way to it may be new. -/
structure Keeps (kept : Address → Prop) (path : String) (before after : Storage) : Prop where
  located : after.locate path = .ok (before.target path)
  there : after.node? (before.target path) = some .directory
  nodes : ∀ at_, kept at_ → after.node? at_ = before.node? at_ ∨
    before.OnWay path at_ ∧ before.node? at_ = none ∧ after.node? at_ = some .directory
  /-- Where the directory was there before, nothing is new. -/
  already : before.isDirectory path = true → ∀ at_, kept at_ → after.node? at_ = before.node? at_

/-- Of the addresses in question, a directory holds what it held before, which is nothing if it is
new. -/
def KeepsInside (kept : Address → Prop) (path : String) (before after : Storage) : Prop :=
  ∀ at_, kept at_ → isWithin (before.target path) at_ = true → at_ ≠ before.target path →
    after.node? at_ = before.node? at_

/-- The way to a directory does not lead through what it holds, unless it goes up. -/
theorem not_onWay_of_isWithin {path : String} {at_ : Address} (down : .parent ∉ Path.walk path)
    (inside : isWithin (storage.target path) at_ = true) (other : at_ ≠ storage.target path) :
    ¬ storage.OnWay path at_ := by
  rintro ⟨front, less, nonempty, rfl⟩
  -- what the way passes lies above its end
  have roots : .root ∉ (Path.steps path).drop front.length := by
    intro mem
    obtain ⟨n, length⟩ := Nat.exists_eq_succ_of_ne_zero
      (Nat.ne_of_gt (List.length_pos_iff.mpr nonempty))
    rw [length, ← List.drop_tail] at mem
    exact Path.root_notMem_tail_steps path (List.mem_of_mem_drop mem)
  have above := Path.leads_isWithin (storage.origin path) less
    (fun mem => down (Path.mem_walk_of_mem_steps mem)) roots
  rw [Path.leads_steps, ← target] at above
  exact other (eq_of_isWithin above (isWithin_iff.mp inside).length_le)

/-- A directory that was there holds what it held before, and so does one that was not, unless its
path goes up. -/
theorem Keeps.inside {kept : Address → Prop} {path : String} (h : Keeps kept path before after)
    (plain : before.isDirectory path = true ∨ .parent ∉ Path.walk path) :
    KeepsInside kept path before after := by
  intro at_ mem inside other
  rcases plain with already | down
  · exact h.already already at_ mem
  · exact (h.nodes at_ mem).resolve_right fun new =>
      not_onWay_of_isWithin down inside other new.1

theorem Opens.nodes_of_files (h : Opens P before after) (at_ : Address) :
    after.node? at_ = before.node? at_ ∨
      P at_ ∧ before.node? at_ = none ∧ after.node? at_ = some .directory := by
  have files := congrFun h.files at_
  rw [file?, file?] at files
  rcases h.nodes at_ with same | ⟨inside, free, filled⟩
  · exact .inl same
  · obtain ⟨new, found⟩ := Option.isSome_iff_exists.mp filled
    cases old : before.node? at_ with
    | none =>
      rw [found, old] at files
      cases new with
      | file bytes => contradiction
      | directory => exact .inr ⟨inside, rfl, found⟩
    | some node =>
      rw [found, old] at files
      cases node with
      | directory => exact absurd old free
      | file bytes =>
        cases new with
        | directory => contradiction
        | file content =>
          obtain rfl : content = bytes := Option.some.inj files
          exact .inl (found.trans rfl)

/-- Creating a directory with all that it lies in keeps everything. -/
theorem keeps_makeDirectories (tree : storage.IsTree) {path : String} {place : Address}
    (made : (Disk.makeDirectories path : Attempt Unit).run storage = (.ok (), after))
    (located : after.locate path = .ok place) (there : after.node? place = some .directory) :
    Keeps (fun _ => True) path storage after := by
  have opens := opens_makeDirectories tree path
  rw [made] at opens
  obtain rfl : place = storage.target path :=
    (eq_target_of_locate located).trans (target_congr opens.current path)
  refine ⟨located, there, fun at_ _ => opens.nodes_of_files at_, ?_⟩
  intro already at_ _
  rw [makeDirectories_of_isDirectory already] at made
  rw [(Prod.mk.inj made).2]

theorem Keeps.trans {kept : Address → Prop} {path : String} {between : Storage}
    (h : Keeps (fun _ => True) path before between)
    (located : after.locate path = between.locate path)
    (there : after.node? (before.target path) = between.node? (before.target path))
    (same : ∀ at_, kept at_ → after.node? at_ = between.node? at_) :
    Keeps kept path before after := by
  refine ⟨located.trans h.located, there.trans h.there, ?_, ?_⟩
  · intro at_ inside
    rw [same at_ inside]
    exact h.nodes at_ trivial
  · intro already at_ inside
    rw [same at_ inside]
    exact h.already already at_ trivial

end Storage

namespace Bundle

variable {storage prepared started left : Storage} {catalogue : Catalogue} {resource : Resource}
  {out staging name : String} {place : Storage.Address}

/-- The name of a staging directory is one ordinary segment. -/
structure IsStagingName (name : String) : Prop where
  ordinary : Path.IsOrdinary name
  single : Path.segments name = [name]
  noNul : '\x00' ∉ name.toList

theorem isStagingName {suffix : String} (noSlash : '/' ∉ suffix.toList)
    (noNul : '\x00' ∉ suffix.toList) : IsStagingName (stagingStem ++ suffix) := by
  have absent : ∀ {mark : Char}, mark ∉ stagingStem.toList → mark ∉ suffix.toList →
      mark ∉ (stagingStem ++ suffix).toList := by
    intro mark stem other mem
    rw [String.toList_append] at mem
    exact (List.mem_append.mp mem).elim stem other
  have long : 2 < (stagingStem ++ suffix).toList.length := by
    rw [String.toList_append, List.length_append]
    exact Nat.lt_add_right _ (by decide)
  have single := absent (by decide) noSlash
  refine ⟨fun piece mem => ?_, Path.segments_of_no_slash single, absent (by decide) noNul⟩
  rw [Path.pieces_of_no_slash single, List.mem_singleton] at mem
  subst mem
  refine ⟨?_, ?_, ?_⟩ <;> (intro same; rw [same] at long; contradiction)

theorem isStagingName_freshSuffix (storage : Storage) (parent : Storage.Address) :
    IsStagingName (stagingStem ++ storage.freshSuffix parent stagingStem) := by
  have absent : ∀ {mark : Char} {n : Nat}, mark.isDigit = false → mark ∉ (decimal n).toList := by
    intro mark n other mem
    rw [isDigit_of_mem_decimal mem] at other
    contradiction
  rw [Storage.freshSuffix]
  split
  · exact isStagingName (Storage.Suffix.noSlash _) (Storage.Suffix.noNul _)
  · exact isStagingName (absent (by decide)) (absent (by decide))

/-- A fresh directory in another one, whose name is one ordinary segment. -/
structure Stages (out staging : String) (place : Storage.Address) (name : String)
    (prepared started : Storage) : Prop where
  located : prepared.locate out = .ok place
  there : prepared.node? place = some .directory
  free : prepared.node? (place ++ [name]) = none
  path : staging = Path.join out name
  plain : IsStagingName name
  opens : Storage.Opens (· = place ++ [name]) prepared started
  staged : started.locate staging = .ok (place ++ [name])
  opened : started.node? (place ++ [name]) = some .directory

theorem run_makeFreshDirectory (parent stem : String) :
    (Disk.makeFreshDirectory parent stem : Storage.Attempt String).run storage =
      storage.makeFreshDirectory parent stem := rfl

theorem stages_of_makeFreshDirectory (tree : prepared.IsTree)
    (made : (Disk.makeFreshDirectory out stagingStem : Storage.Attempt String).run prepared =
      (.ok staging, started)) :
    ∃ place, Stages out staging place (stagingStem ++ prepared.freshSuffix place stagingStem)
      prepared started := by
  rw [run_makeFreshDirectory, Storage.makeFreshDirectory] at made
  split at made
  · exact absurd (Prod.mk.inj made).1 nofun
  · rename_i place located
    dsimp only at made
    refine ⟨place, ?_⟩
    have plain := isStagingName_freshSuffix prepared place
    generalize stagingStem ++ prepared.freshSuffix place stagingStem = name at made plain ⊢
    split at made
    · exact absurd (Prod.mk.inj made).1 nofun
    · rename_i changed created
      rw [Prod.mk.injEq, Except.ok.injEq] at made
      obtain ⟨rfl, rfl⟩ := made
      have free := (Storage.of_makeDirectory tree created).2.1
      have found := (Storage.of_makeDirectory tree created).1
      obtain ⟨opens, staged, opened⟩ := opens_group tree located plain.ordinary created
      have there := Storage.directory_of_locate_join located plain.ordinary found List.nil_prefix
        (Path.segments_ne_nil name).symm
      rw [Storage.target_join located plain.ordinary, plain.single] at free
      rw [plain.single] at opens staged opened
      rw [List.append_nil] at there
      exact ⟨located, there, free, rfl, plain, opens, staged, opened⟩

/-- Writing consists of preparing the directory, and of what happens in the staging directory. -/
theorem on_write
    (made : (Disk.makeDirectories out : Storage.Attempt Unit).run storage = (.ok (), prepared))
    (fresh : (Disk.makeFreshDirectory out stagingStem : Storage.Attempt String).run prepared =
      (.ok staging, started)) :
    Writing.on (write catalogue resource out) storage =
      Writing.on (clearing staging (stage catalogue resource out staging)) started := by
  rw [write, on_bind, on_perform, made]
  change Writing.on (perform (Disk.makeFreshDirectory out stagingStem) >>= _) prepared = _
  rw [on_bind, on_perform, fresh]
  rfl

def cleared (storage : Storage) (directory : String) : Storage :=
  (Storage.attempt (·.removeTree directory) storage).2

theorem on_clearing {α : Type} (directory : String) (action : Writing α) :
    Writing.on (clearing directory action) storage =
      ((Writing.on action storage).1, cleared (Writing.on action storage).2 directory) := rfl

theorem cleared_eq {directory : String} {at_ : Storage.Address}
    (found : storage.locate directory = .ok at_) (there : (storage.node? at_).isSome) :
    cleared storage directory = storage.removeAt at_ := by
  obtain ⟨node, there⟩ := Option.isSome_iff_exists.mp there
  have removed : storage.removeTree directory = .ok (storage.removeAt at_) := by
    rw [Storage.removeTree, found]
    dsimp only [bind, Except.bind]
    rw [there]
    rfl
  rw [cleared, Storage.attempt, removed]

namespace Stages

variable (h : Stages out staging place name prepared started)

include h

theorem walk : Path.walk staging = Path.walk out ++ [.segment name] := by
  rw [h.path, Path.walk_join (Storage.ne_empty_of_locate h.located) h.plain.ordinary,
    h.plain.single]
  rfl

theorem origin (same : storage.current = prepared.current) :
    storage.origin staging = prepared.origin out := by
  rw [Storage.origin, same, ← Storage.origin, h.path,
    Storage.origin_join h.located h.plain.ordinary]

/-- The way to the directory does not pass the fresh one. -/
theorem way (tree : prepared.IsTree) {front : List PathStep} (less : front <+: Path.walk out) :
    prepared.node? (Path.leads (prepared.origin out) front) = some .directory ∧
      Storage.isWithin (place ++ [name]) (Path.leads (prepared.origin out) front) = false := by
  have there := Storage.directory_to h.located h.there less
  exact ⟨there, tree.not_isWithin (by rw [h.free]; nofun) there⟩

/-- What is found below the staging directory is found by a way to it. -/
theorem passed (current : storage.current = prepared.current) {root : String}
    (ordinary : Path.IsOrdinary root) {at_ : Storage.Address}
    (found : storage.locate (Path.join staging root) = .ok at_) :
    (∀ front, front <+: Path.walk out →
      storage.node? (Path.leads (prepared.origin out) front) = some .directory) ∧
      storage.node? (place ++ [name]) = some .directory := by
  have nonempty := Storage.ne_empty_of_locate h.staged
  have origin : storage.origin (Path.join staging root) = prepared.origin out := by
    rw [← h.origin current, Storage.origin, Storage.origin,
      Path.isAbsolute_join nonempty (Path.isAbsolute_of_isOrdinary ordinary)]
  have whole := Path.walk_join nonempty ordinary
  have through : ∀ front, front <+: Path.walk staging →
      storage.node? (Path.leads (prepared.origin out) front) = some .directory := by
    intro front less
    rw [← origin]
    refine Storage.directory_of_way found (whole ▸ less.trans (List.prefix_append _ _)) ?_
    rintro rfl
    have length := less.length_le
    have more := List.length_pos_iff.mpr (Path.segments_ne_nil root)
    rw [whole, List.length_append, List.length_map] at length
    omega
  refine ⟨fun front less => through front ?_, ?_⟩
  · exact h.walk ▸ less.trans (List.prefix_append _ _)
  · have last := through _ (List.prefix_refl _)
    rwa [h.walk, Path.leads_append, ← Storage.target, ← Storage.eq_target_of_locate h.located]
      at last

/-- There is no file in a fresh directory. -/
theorem file?_staged (tree : prepared.IsTree) (below : Storage.Address) :
    started.file? (place ++ [name] ++ below) = none := by
  rw [h.opens.files, Storage.file?, tree.vacant_within h.free (Storage.isWithin_append _ _)]
  rfl

theorem fills (catalogue : Catalogue) (ordinary : resource.IsOrdinary) :
    Storage.Fills (resource.Reaches (place ++ [name])) started
      (Writing.on (writeResource catalogue staging resource) started).2 :=
  fills_writeResource catalogue resource ordinary h.opens.tree h.staged h.opened

variable (filled : Storage.Fills (resource.Reaches (place ++ [name])) started left)

include filled

/-- Outside the staging directory nothing changes. -/
theorem elsewhere {at_ : Storage.Address} (apart : Storage.isWithin (place ++ [name]) at_ = false) :
    left.node? at_ = prepared.node? at_ := by
  have outside : ¬ resource.Reaches (place ++ [name]) at_ := by
    intro reached
    rw [reached.isWithin.1] at apart
    contradiction
  rw [filled.outside outside]
  refine h.opens.toFills.outside ?_
  rintro rfl
  rw [Storage.isWithin_iff.mpr (List.prefix_refl _)] at apart
  contradiction

/-- Removing the staging directory takes away all that came up since there was none. -/
theorem node?_removeAt (tree : prepared.IsTree) (at_ : Storage.Address) :
    (left.removeAt (place ++ [name])).node? at_ = prepared.node? at_ := by
  rw [Storage.node?_removeAt (by simp)]
  cases inside : Storage.isWithin (place ++ [name]) at_ with
  | true => exact (tree.vacant_within h.free inside).symm
  | false => exact h.elsewhere filled inside

end Stages

/-- A write that fails at one of the files or groups leaves the directory as it was, whatever free
name is drawn for the staging directory. Left out is only what a missing directory holds whose path
goes up by `..`, since making it makes all the directories that the path passes. -/
theorem write_keeps_of_failure {failure : WriteFailure} (tree : storage.IsTree)
    (ordinary : resource.IsOrdinary)
    (made : (Disk.makeDirectories out : Storage.Attempt Unit).run storage = (.ok (), prepared))
    (fresh : (Disk.makeFreshDirectory out stagingStem : Storage.Attempt String).run prepared =
      (.ok staging, started))
    (failed : Writing.on (writeResource catalogue staging resource) started =
      (.error failure, left)) :
    ∃ final, Writing.on (write catalogue resource out) storage = (.error failure, final) ∧
      Storage.Keeps (fun _ => True) out storage final ∧
      (storage.isDirectory out = true ∨ .parent ∉ Path.walk out →
        Storage.KeepsInside (fun _ => True) out storage final) := by
  have prepares := Storage.opens_makeDirectories tree out
  rw [made] at prepares
  obtain ⟨place, stages⟩ := stages_of_makeFreshDirectory prepares.tree fresh
  generalize stagingStem ++ prepared.freshSuffix place stagingStem = name at stages
  have filled := stages.fills catalogue ordinary
  rw [failed] at filled
  have removed : cleared left staging = left.removeAt (place ++ [name]) :=
    cleared_eq (filled.locate stages.staged) (filled.isSome (by rw [stages.opened]; rfl))
  have same := stages.node?_removeAt filled prepares.tree
  have keeps : Storage.Keeps (fun _ => True) out storage (left.removeAt (place ++ [name])) := by
    refine (Storage.keeps_makeDirectories tree made stages.located stages.there).trans ?_ (same _)
      fun at_ _ => same at_
    rw [stages.located]
    refine Storage.locate_of_way stages.located (filled.current.trans stages.opens.current)
      fun front less other => ?_
    rw [same]
    exact Storage.directory_of_way stages.located less other
  refine ⟨left.removeAt (place ++ [name]), ?_, keeps, keeps.inside⟩
  rw [on_write made fresh, on_clearing, stage, on_bind, failed, removed]

/-- A script that cannot be loaded after the page was written: the bundle before stays, and what was
staged under a drawn name is gone. -/
theorem write_keeps_bundle_of_missing_script :
    let storage : Storage := { entries := [(["out"], .directory), (["out", "doc"], .directory),
      (["out", "doc", "index.html"], .file "old".toUTF8)], drawn := [⟨"k3v", by decide, by decide⟩] }
    let resource : Resource := .group "doc" [.file "index" .html (.text "new"),
      .group "script" [.file "script" .javascript (.entry "script/script.js")]]
    let failure : WriteFailure := .load (.missing "script/script.js")
    ∃ final, Writing.on (write (Catalogue.ofRegistry {}) resource "out") storage =
        (.error failure, final) ∧
      Storage.Keeps (fun _ => True) "out" storage final ∧
      Storage.KeepsInside (fun _ => True) "out" storage final := by
  intro storage resource failure
  have made : (Disk.makeDirectories "out" : Storage.Attempt Unit).run storage =
    (.ok (), storage) := rfl
  generalize staged : storage.makeFreshDirectory "out" stagingStem = started
  have named : started.1 = .ok "out/.folio-k3v" := by
    rw [← staged]
    decide +kernel
  have fresh : (Disk.makeFreshDirectory "out" stagingStem : Storage.Attempt String).run storage =
      (.ok "out/.folio-k3v", started.2) := by
    rw [run_makeFreshDirectory, staged, ← named]
  generalize ran : Writing.on
    (writeResource (Catalogue.ofRegistry {}) "out/.folio-k3v" resource) started.2 = written
  have fails : written.1 = .error failure := by
    rw [← ran, ← staged]
    decide +kernel
  have failed : Writing.on (writeResource (Catalogue.ofRegistry {}) "out/.folio-k3v" resource)
      started.2 = (.error failure, written.2) := by
    rw [ran, ← fails]
  have tree : storage.IsTree := by decide
  have ordinary : resource.IsOrdinary := by decide
  have there : storage.isDirectory "out" = true := by decide +kernel
  obtain ⟨final, fails, keeps, inside⟩ := write_keeps_of_failure tree ordinary made fresh failed
  exact ⟨final, fails, keeps, inside (.inl there)⟩

end Bundle
end Quire
