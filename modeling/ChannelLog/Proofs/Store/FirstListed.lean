import Mathlib.Data.List.Induction
import ChannelLog.Store

/-!
# Locations in the order of their first listing

A topic index and a manifest list a location last, unless they list it already (`listLast`). Whatever
is listed one after the other, repeated in any pattern, stands where it occurs first
(`eraseDups_concat`), and once (`nodup_eraseDups`).
-/

namespace ChannelLog

/-- Appends `location` unless it is there. -/
def listLast (order : List Location) (location : Location) : List Location :=
  if location ∈ order then order else order ++ [location]

theorem mem_listLast {order : List Location} {location l : Location} :
    l ∈ listLast order location ↔ l ∈ order ∨ l = location := by
  unfold listLast
  split
  · next h => exact (or_iff_left_of_imp fun e => e ▸ h).symm
  · simp

theorem listLast_idem (order : List Location) (location : Location) :
    listLast (listLast order location) location = listLast order location :=
  if_pos (mem_listLast.2 (.inr rfl))

theorem listLast_fresh {order : List Location} {location : Location} (h : location ∉ order) :
    listLast order location = order ++ [location] := if_neg h

theorem nodup_listLast {order : List Location} (h : order.Nodup) (location : Location) :
    (listLast order location).Nodup := by
  unfold listLast
  split
  · exact h
  · next hn =>
    rw [List.nodup_append]
    refine ⟨h, List.pairwise_singleton _ _, ?_⟩
    intro l hl k hk heq
    rw [heq, List.mem_singleton.1 hk] at hl
    exact hn hl

/-! ## First occurrences -/

/-- **Of what is listed one after the other the first occurrences stay.** -/
theorem eraseDups_concat (ls : List Location) (l : Location) :
    (ls ++ [l]).eraseDups = listLast ls.eraseDups l := by
  rw [List.eraseDups_append, listLast, List.cons_removeAll, List.nil_removeAll]
  by_cases h : l ∈ ls
  · simp [h]
  · simp [h, List.eraseDups_cons]

theorem nodup_eraseDups (ls : List Location) : ls.eraseDups.Nodup := by
  induction ls using List.reverseRecOn with
  | nil => exact List.nodup_nil
  | append_singleton ls l ih =>
    rw [eraseDups_concat]
    exact nodup_listLast ih l

theorem eraseDups_eq_self {ls : List Location} (h : ls.Nodup) : ls.eraseDups = ls := by
  induction ls using List.reverseRecOn with
  | nil => rfl
  | append_singleton ls l ih =>
    obtain ⟨hls, -, hdisjoint⟩ := List.nodup_append.1 h
    have hnew : l ∉ ls := fun hl => hdisjoint l hl l (List.mem_singleton_self l) rfl
    rw [eraseDups_concat, ih hls, listLast_fresh hnew]

end ChannelLog
