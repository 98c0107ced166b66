import Quire.Document.Encoding
import Quire.Index.Basic

/-!
# The index in JSON

Registries become objects in order of registration. Kinds without a location are left out.
-/

namespace Quire

def Location.toJson (location : Location) : Json :=
  .object
    (("sections", .array (location.sections.map Json.ofNat)) ::
      if location.ordinals.isEmpty then []
      else [("ordinals", .array (location.ordinals.map Json.ofNat))])

def IdentifierTarget.toJson (target : IdentifierTarget) : Json :=
  .object
    [("kind", .string "heading"), ("depth", .ofNat target.depth.toNat),
     ("text", .string target.text), ("explicit", .bool target.isExplicit)]

def Presence.toJson (presence : Presence) : Json :=
  .array (presence.toList.map fun capability => .string capability.name)

def Registry.toJson {α : Type} (value : α → Json) (registry : Registry α) : Json :=
  .object (registry.entries.map fun (key, a) => (key, value a))

def Locations.toJson (locations : Locations) : Json :=
  .object <| LocationKind.all.filterMap fun kind =>
    let found := locations.ofKind kind
    if found.isEmpty then none else some (kind.name, .array (found.map Location.toJson))

def Index.toJson (index : Index) : Json :=
  .object
    [("presence", index.presence.toJson),
     ("link_definitions", index.linkDefinitions.toJson LinkDefinition.toJson),
     ("identifiers", index.identifiers.toJson IdentifierTarget.toJson),
     ("locations", index.locations.toJson)]

end Quire
