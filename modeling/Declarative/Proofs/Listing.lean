import Mathlib.Data.List.Perm.Basic
import Mathlib.Data.List.Nodup
import Declarative.Trace

/-!
# Traces in which every number occurs once

A trace keeps the order of its nodes apart from what is recorded of them. Where no number
is recorded twice the two make up one list of entries: looking a number up means looking
for it in that list, in whatever order the entries were recorded.
-/

namespace Declarative

namespace Trace

theorem eraseDups_eq_self_of_nodup {ids : List NodeId} (hids : ids.Nodup) : ids.eraseDups = ids := by
  induction ids with
  | nil => rfl
  | cons id ids ih =>
      rw [List.nodup_cons] at hids
      have hkeep : ids.filter (fun other => !other == id) = ids :=
        List.filter_eq_self.mpr fun other hother => by
          have hne : other ≠ id := fun h => hids.1 (h ▸ hother)
          simp [hne]
      rw [List.eraseDups_cons, hkeep, ih hids.2]

/-- With distinct numbers a look-up finds what was recorded, and nothing else. -/
theorem get?_eq_some_iff {trace : Trace} (hids : (trace.records.map (·.1)).Nodup) {id : NodeId}
    {entry : Entry} : trace.get? id = some entry ↔ (id, entry) ∈ trace.records := by
  obtain ⟨order, records⟩ := trace
  simp only [get?] at *
  induction records generalizing entry with
  | nil => simp [List.findRev?]
  | cons record records ih =>
      obtain ⟨key, known⟩ := record
      rw [List.map_cons, List.nodup_cons] at hids
      have hlater := @ih entry hids.2
      rw [List.findRev?, List.mem_cons]
      cases hfind : records.findRev? (·.1 == id) with
      | some found =>
          -- Something recorded later has the number, so the head has another one.
          have hmem : (id, found.2) ∈ records := (ih hids.2).mp (by rw [hfind]; rfl)
          have hkey : id ≠ key := fun h =>
            hids.1 (List.mem_map.mpr ⟨(id, found.2), hmem, h⟩)
          rw [hfind] at hlater
          simpa [hkey] using hlater
      | none =>
          rw [hfind] at hlater
          have hnone : (id, entry) ∉ records := fun h => by simpa using hlater.mpr h
          by_cases hkey : key = id
          · subst hkey
            simp [hnone, eq_comm]
          · simp [hnone, hkey, Ne.symm hkey]

/-! ## Traces that list entries -/

/-- The trace has the numbers of the entries in their order, and has recorded the entries
in some order. -/
structure Lists (trace : Trace) (entries : List (NodeId × Entry)) : Prop where
  order : trace.order = entries.map (·.1)
  records : trace.records.Perm entries

namespace Lists

theorem empty : Trace.empty.Lists [] := ⟨rfl, .nil⟩

theorem append {a b : Trace} {as bs : List (NodeId × Entry)} (ha : a.Lists as) (hb : b.Lists bs) :
    (a ++ b).Lists (as ++ bs) :=
  ⟨by rw [order_append, ha.order, hb.order, List.map_append], ha.records.append hb.records⟩

/-- A node gets its place, then what is inside of it, and then its outcome. -/
theorem node {inside : Trace} {entries : List (NodeId × Entry)} (h : inside.Lists entries)
    (id : NodeId) (entry : Entry) :
    (reserve id ++ inside ++ record id entry).Lists ((id, entry) :: entries) := by
  refine ⟨?_, ?_⟩
  · simp [reserve, record, h.order]
  · simp only [records_append, reserve, record, List.nil_append]
    exact (List.perm_append_singleton _ _).trans (h.records.cons _)

theorem leaf (id : NodeId) (entry : Entry) : (reserve id ++ record id entry).Lists [(id, entry)] :=
  empty.node id entry

variable {trace : Trace} {entries : List (NodeId × Entry)}

section

variable (h : trace.Lists entries) (hids : (entries.map (·.1)).Nodup)

include h hids

theorem get?_eq_some_iff {id : NodeId} {entry : Entry} :
    trace.get? id = some entry ↔ (id, entry) ∈ entries := by
  rw [Trace.get?_eq_some_iff ((h.records.map (·.1)).nodup_iff.mpr hids), h.records.mem_iff]

/-- The trace is read back as the entries, in their order. -/
theorem toList_eq : trace.toList = entries := by
  have hfound : ∀ entry ∈ entries,
      (trace.get? entry.1).map (entry.1, ·) = some entry := fun entry hentry => by
    rw [(h.get?_eq_some_iff hids).mpr hentry, Option.map_some]
  rw [toList, h.order, List.filterMap_map]
  exact (List.filterMap_congr hfound).trans List.filterMap_some

theorem recorded_perm : trace.recorded.Perm (entries.map (·.1)) := by
  have hperm := h.records.map (·.1)
  rw [recorded, eraseDups_eq_self_of_nodup (hperm.nodup_iff.mpr hids)]
  exact hperm

theorem size_eq : trace.size = entries.length := by
  rw [size, (h.recorded_perm hids).length_eq, List.length_map]

theorem failureCount_eq : trace.failureCount = entries.countP (·.2.isFailure) := by
  have hfound : ∀ entry ∈ entries,
      (trace.get? entry.1).any Entry.isFailure = entry.2.isFailure := fun entry hentry => by
    rw [(h.get?_eq_some_iff hids).mpr hentry, Option.any_some]
  rw [failureCount, (h.recorded_perm hids).countP_eq, List.countP_map]
  exact List.countP_congr fun entry hentry => by simp [hfound entry hentry]

end

end Lists

end Trace

end Declarative
