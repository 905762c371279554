/-
# Common assignments -- what is listed of a common combination can be assigned

The values of a common combination are listed as they are shown, and an assignment reads a
text as a cell of the type of its parameter.  A value that the type admits is read back as it
was shown (`ParameterType.normalize_display`), with one exception: the word for the absent
value is never read as a text.  So an assignment gives every value of a combination but the
text `None` (`common_value_assigned_iff`), which a table with a row for no value lists among
the values of its index (`common_value_assigned_refuted`).
-/
import PartCatalog.Proofs.IndexKeys
import PartCatalog.Proofs.LoadedRepositories
import PartCatalog.Proofs.WrittenValues

set_option autoImplicit false

namespace PartCatalog

open Outcome

/-! ## Assignments -/

namespace PartQuery

variable {params : ParameterSet}

/-- A value that is admitted for a free parameter is assigned as it is read back. -/
theorem assignment_display {name : String} {v : Value} (noEquals : '=' ∉ name.toList)
    (isFree : name ∈ params.free) (admitted : params.types.Admits name v) :
    assignment params (name ++ "=" ++ v.display) =
      .ok (name, if v = .text "None" then .absent else v) := by
  obtain ⟨type, typed, admits⟩ := admitted
  refine assignment_eq_ok noEquals isFree ?_
  rw [TypeMap.typeOf_eq_of_get? typed]
  exact ParameterType.normalize_display admits

/-- **What is listed of a common combination can be assigned**, apart from the text `None`.  A
combination of a class that was read has a value for each free parameter, and an assignment of
the value as it is listed gives that value exactly when it is not that text, which is read as
the absent value. -/
theorem common_value_assigned_iff {node : Node} {cs : List PartClass} (read : PartClass.ofNode node = .ok cs)
    {c : PartClass} (isClass : c ∈ cs) {combos : List (List Value)}
    (isCommon : c.parameters.common = some combos) {combo : List Value} (listed : combo ∈ combos) :
    combo.length = c.parameters.free.length ∧
      ∀ (place : Nat) (name : String) (v : Value), c.parameters.free[place]? = some name →
        combo[place]? = some v → '=' ∉ name.toList →
          (assignment c.parameters (name ++ "=" ++ v.display) = .ok (name, v) ↔ v ≠ .text "None") ∧
          (v = .text "None" → assignment c.parameters (name ++ "=" ++ v.display) = .ok (name, .absent)) := by
  have well := (PartClass.reachable_of_ofNode read c isClass).wellFormed
  have admitted : c.parameters.AdmitsCombination combo := well.common combos isCommon combo listed
  refine ⟨admitted.length_eq.symm, fun place name v isName isValue noEquals => ?_⟩
  obtain ⟨name', isName', admits⟩ := exists_getElem?_of_forall₂ admitted isValue
  obtain rfl : name = name' := Option.some.inj (isName.symm.trans isName')
  rw [assignment_display noEquals (List.mem_of_getElem? isName) admits]
  by_cases none : v = .text "None" <;> simp [none]

namespace Example

open ParameterSet.Example (mapping texts)

/-- A fitting in one size, or in none. -/
def fittingNode : Node := mapping [
  ("id", .str "fitting"), ("naming", mapping [("template", .str "Part")]), ("source", .str "drawing"),
  ("parameters", mapping [
    ("free", texts ["size"]),
    ("types", mapping [("size", .str "Table Index"), ("d", .str "String")]),
    ("tables", mapping [("index", .str "size"), ("columns", texts ["d"]),
      ("data", mapping [("M3", texts ["4"]), ("None", texts ["5"])])])])]

theorem sort_sizes : ChoiceOrder.sort ["M3", "None"] = ["M3", "None"] := by
  have isAlphabetical : ChoiceOrder.strategy ["M3", "None"] = .alphabetical := by decide
  rw [ChoiceOrder.sort, isAlphabetical]
  exact List.mergeSort_of_pairwise (by decide)

/-- The size is listed with each key of its table, the word for no value among them. -/
theorem exists_fitting : ∃ c, PartClass.ofNode fittingNode = .ok [c] ∧ c.parameters.free = ["size"] ∧
    c.parameters.common = some [[.text "M3"], [.text "None"]] := by
  obtain ⟨cs, read⟩ : ∃ cs, PartClass.ofNode fittingNode = .ok cs := exists_eq_ok_of_isOk (by decide)
  have shown : (PartClass.ofNode fittingNode).toOption.map
      (List.map fun c => (c.parameters.free, c.parameters.common)) =
        some [(["size"], some (crossProduct [(ChoiceOrder.sort ["M3", "None"]).map .text]))] := rfl
  rw [read, sort_sizes] at shown
  obtain ⟨c, rfl, same⟩ := List.map_eq_singleton_iff.1 (Option.some.inj shown)
  exact ⟨c, read, congrArg Prod.fst same, congrArg Prod.snd same⟩

end Example

/-- A size that is listed and is a size can be assigned. -/
theorem common_value_assigned_fitting :
    ∃ c, PartClass.ofNode Example.fittingNode = .ok [c] ∧
      c.parameters.common = some [[.text "M3"], [.text "None"]] ∧
      assignment c.parameters "size=M3" = .ok ("size", .text "M3") := by
  obtain ⟨c, read, free, common⟩ := Example.exists_fitting
  have isName : c.parameters.free[0]? = some "size" := by rw [free]; rfl
  have listed : [Value.text "M3"] ∈ [[Value.text "M3"], [.text "None"]] := List.mem_cons_self
  obtain ⟨-, assigned⟩ := common_value_assigned_iff read List.mem_cons_self common listed
  exact ⟨c, read, common, (assigned 0 "size" (.text "M3") isName rfl (by decide)).1.2 (by decide)⟩

/-- The word for the absent value is listed as a text and assigned as the absent value. -/
theorem common_value_assigned_refuted :
    ∃ c combo, PartClass.ofNode Example.fittingNode = .ok [c] ∧
      c.parameters.common = some [[.text "M3"], combo] ∧ c.parameters.free[0]? = some "size" ∧
      combo[0]? = some (.text "None") ∧ '=' ∉ "size".toList ∧
      assignment c.parameters ("size" ++ "=" ++ (Value.text "None").display) = .ok ("size", .absent) ∧
      assignment c.parameters ("size" ++ "=" ++ (Value.text "None").display) ≠ .ok ("size", .text "None") := by
  obtain ⟨c, read, free, common⟩ := Example.exists_fitting
  have isName : c.parameters.free[0]? = some "size" := by rw [free]; rfl
  have well := (PartClass.reachable_of_ofNode read c List.mem_cons_self).wellFormed
  have admitted : List.Forall₂ c.parameters.types.Admits c.parameters.free [.text "None"] :=
    well.common _ common _ (List.mem_cons_of_mem _ List.mem_cons_self)
  rw [free, List.forall₂_cons] at admitted
  have isFree : "size" ∈ c.parameters.free := List.mem_of_getElem? isName
  have assigned : assignment c.parameters ("size" ++ "=" ++ (Value.text "None").display) = .ok ("size", .absent) :=
    assignment_display (by decide) isFree admitted.1
  refine ⟨c, [.text "None"], read, common, isName, rfl, by decide, assigned, ?_⟩
  rw [assigned]
  simp

end PartQuery

end PartCatalog
