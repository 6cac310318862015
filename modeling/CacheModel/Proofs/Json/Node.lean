import Mathlib
import CacheModel.Json.Node

/-!
# Values without faults

A list or an object has no fault if none of its parts has one and it is closed at its end.
-/

namespace CacheModel.Json

/-- The items of an array as a list, up to the place where they break off. -/
def Items.toList : Items → List Node
  | .item value rest => value :: rest.toList
  | _ => []

theorem Items.fault?_item_eq_none_iff {value : Node} {rest : Items} :
    (Items.item value rest).fault? = none ↔ value.fault? = none ∧ rest.fault? = none := by
  simp [Items.fault?]

theorem Members.fault?_member_eq_none_iff {key : String} {value : Node} {rest : Members} :
    (Members.member key value rest).fault? = none ↔
      value.fault? = none ∧ rest.fault? = none := by
  simp [Members.fault?]

theorem Items.fault?_of_mem {items : Items} (h : items.fault? = none) {value : Node}
    (hmem : value ∈ items.toList) : value.fault? = none := by
  fun_induction Items.toList items with
  | case1 first rest ih =>
    obtain ⟨hfirst, hrest⟩ := fault?_item_eq_none_iff.mp h
    rcases List.mem_cons.mp hmem with rfl | hmem
    · exact hfirst
    · exact ih hrest hmem
  | case2 => cases hmem

theorem Members.fault?_of_mem {members : Members} (h : members.fault? = none)
    {member : String × Node} (hmem : member ∈ members.toList) : member.2.fault? = none := by
  fun_induction Members.toList members with
  | case1 key value rest ih =>
    obtain ⟨hfirst, hrest⟩ := fault?_member_eq_none_iff.mp h
    rcases List.mem_cons.mp hmem with rfl | hmem
    · exact hfirst
    · exact ih hrest hmem
  | case2 => cases hmem

end CacheModel.Json
