import Espiral.Mm.AddressSpaceRuns

/-!
# Refinement of the page maps

The address space manager behaves as a family of page maps, one for each live
root: a lookup finds exactly what the successful mappings of that root have
put there since the root was created.
-/

namespace Espiral.AddressSpaceManager

set_option autoImplicit false

open MachineWords Traces

section Lookup

variable {platform : Platform} {identity : Nat → Prop} {holes : HoleList}
  {state : AddressSpaceManager} {root va : Nat}

theorem mapping_iff_succeeded {history : List MappingEvent} (consistent : Consistent history)
    {page found : Nat} :
    ((mapping history root page).map fun pte => ptePa pte ||| vaPgoff va) = some found ↔
      ∃ mappedVa mappedPa flags, Succeeded history root mappedVa mappedPa flags ∧
        mappedVa / 4096 = page ∧ found = frameOf mappedPa ||| vaPgoff va := by
  constructor
  · intro lookup
    rcases Option.map_eq_some_iff.mp lookup with ⟨pte, mapped, same⟩
    rcases succeeded_of_mapping mapped with ⟨mappedVa, mappedPa, flags, success, inPage, entry⟩
    have bound := (mapping_of_succeeded consistent success).2
    refine ⟨mappedVa, mappedPa, flags, success, inPage, ?_⟩
    rw [← same, entry, ptePa_makePte bound]
  · rintro ⟨mappedVa, mappedPa, flags, success, inPage, same⟩
    have mapped := mapping_of_succeeded consistent success
    rw [← inPage, mapped.1, Option.map_some, ptePa_makePte mapped.2, same]

theorem Reached.translate_succeeded (reached : Reached platform identity holes state)
    (isLive : state.Live root) (vaBound : va < 2 ^ 32) :
    ∃ result next, translate va root state = .ok result next ∧ SameView state next ∧
      ∀ found, result = some found ↔
        ∃ mappedVa mappedPa flags, Succeeded state.history root mappedVa mappedPa flags ∧
          mappedVa / 4096 = va / 4096 ∧ found = frameOf mappedPa ||| (va &&& 0xFFF) := by
  rcases reached.owned with ⟨owner, owned⟩
  rcases translate_mapping owned isLive vaBound with ⟨next, ran, same⟩
  refine ⟨_, next, ran, same, ?_⟩
  intro found
  exact mapping_iff_succeeded reached.consistent

end Lookup

section Fresh

variable {platform : Platform} {identity : Nat → Prop} {holes : HoleList} {owner : Nat → Option Role}
  {state next : AddressSpaceManager} {root va : Nat}

end Fresh

end Espiral.AddressSpaceManager
