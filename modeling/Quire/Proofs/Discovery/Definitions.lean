import Quire.Job
import Quire.Proofs.Discovery.Pass
import Quire.Proofs.Index.AppendOnly

/-!
# What labels mean

After a pass a label stands for the first definition in preorder whose label matches, wherever in
the document that is.
-/

namespace Quire

def Node.linkDefinition? : Node → Option LinkDefinition
  | .block (.linkDefinition definition) => some definition
  | _ => none

/-- The target of the first definition in a document whose label matches. -/
def Document.target? (document : Document) (label : String) : Option LinkTarget :=
  let definitions := document.nodes.filterMap Node.linkDefinition?
  (definitions.find? fun d => Text.label d.label = Text.label label).map (·.target)

theorem Observer.link?_observeLinkDefinition (index : Index) (node : Node) (label : String) :
    (observeLinkDefinition index node).link? label = (index.link? label).or
      (node.linkDefinition?.filter fun d => Text.label d.label = Text.label label) := by
  unfold observeLinkDefinition
  split
  · rename_i definition
    rw [Index.link?_define, Node.linkDefinition?, Option.filter_some]
    simp only [decide_eq_true_eq]
  · rename_i other
    have nothing : node.linkDefinition? = none := by
      unfold Node.linkDefinition?
      split
      · exact absurd rfl (other _)
      · rfl
    rw [nothing, Option.filter_none, Option.or_none]

/-- What a label stood for before it still stands for, and else the first definition that comes
by. -/
theorem Discovery.link?_foldl {discovery : Discovery} (h : discovery.IsStandard)
    (nodes : List Node) (label : String) :
    (nodes.foldl visit discovery).index.link? label = (discovery.index.link? label).or
      ((nodes.filterMap Node.linkDefinition?).find? fun d =>
        Text.label d.label = Text.label label) := by
  induction nodes generalizing discovery with
  | nil => exact (Option.or_none).symm
  | cons node rest ih =>
    obtain ⟨place, observers⟩ := id h
    have visited : (discovery.visit node).index.link? label =
        (Observer.observeLinkDefinition discovery.index node).link? label := by
      rw [index_visit observers]
      rfl
    rw [List.foldl_cons, ih (isStandard_visit h node), visited,
      Observer.link?_observeLinkDefinition, Option.or_assoc, Index.find?_filterMap_cons]

theorem Context.linkTarget?_discover (context : Context) (document : Document) :
    (context.discover document).linkTarget? = document.target? := by
  funext label
  have found : document.index.link? label =
      (document.nodes.filterMap Node.linkDefinition?).find? fun d =>
        Text.label d.label = Text.label label := by
    rw [Document.index_eq_foldl, Discovery.link?_foldl Discovery.isStandard_initial]
    rfl
  rw [linkTarget?, discover, found]
  rfl

end Quire
