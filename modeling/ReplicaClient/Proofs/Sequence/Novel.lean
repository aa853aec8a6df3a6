import Mathlib.Data.List.Induction
import Mathlib.Data.List.Nodup

/-!
# Appending what is new

A list that takes over only what it does not hold yet keeps what it held.  Behind that stand the
first occurrences of what it took over.
-/

namespace ReplicaClient

variable {α : Type} [DecidableEq α]

def appendNew (l : List α) (a : α) : List α :=
  if a ∈ l then l else l ++ [a]

theorem appendNew_of_mem {l : List α} {a : α} (h : a ∈ l) : appendNew l a = l := by
  simp [appendNew, h]

theorem appendNew_of_not_mem {l : List α} {a : α} (h : a ∉ l) : appendNew l a = l ++ [a] := by
  simp [appendNew, h]

theorem mem_appendNew {l : List α} {a b : α} : b ∈ appendNew l a ↔ b ∈ l ∨ b = a := by
  by_cases h : a ∈ l
  · rw [appendNew_of_mem h]
    exact ⟨Or.inl, fun hb ↦ hb.elim id fun heq ↦ heq ▸ h⟩
  · simp [appendNew_of_not_mem h]

theorem nodup_appendNew {l : List α} (h : l.Nodup) (a : α) : (appendNew l a).Nodup := by
  by_cases ha : a ∈ l
  · rwa [appendNew_of_mem ha]
  · rw [appendNew_of_not_mem ha, ← List.concat_eq_append]
    exact h.concat ha

theorem appendNew_append {l : List α} {a : α} (h : a ∉ l) (l' : List α) :
    appendNew (l ++ l') a = l ++ appendNew l' a := by
  by_cases ha : a ∈ l'
  · simp [appendNew_of_mem ha, appendNew_of_mem (List.mem_append_right l ha)]
  · have hboth : a ∉ l ++ l' := by simp [h, ha]
    simp [appendNew_of_not_mem ha, appendNew_of_not_mem hboth]

section Duplicates

variable [BEq α] [LawfulBEq α]

theorem eraseDups_concat (l : List α) (a : α) :
    (l ++ [a]).eraseDups = appendNew l.eraseDups a := by
  by_cases h : a ∈ l
  · have hmem : a ∈ l.eraseDups := List.mem_eraseDups.mpr h
    simp [List.eraseDups_append, List.removeAll, h, appendNew_of_mem hmem]
  · have hmem : a ∉ l.eraseDups := fun hin ↦ h (List.mem_eraseDups.mp hin)
    simp [List.eraseDups_append, List.eraseDups_cons, List.removeAll, h,
      appendNew_of_not_mem hmem]

theorem foldl_appendNew (l as : List α) :
    as.foldl appendNew l = l ++ (as.filter (· ∉ l)).eraseDups := by
  induction as using List.reverseRecOn with
  | nil => simp
  | append_singleton as a ih =>
      rw [List.foldl_concat, ih]
      by_cases h : a ∈ l
      · have hmem : a ∈ l ++ (as.filter (· ∉ l)).eraseDups := List.mem_append_left _ h
        have hlast : (as ++ [a]).filter (· ∉ l) = as.filter (· ∉ l) := by simp [h]
        rw [appendNew_of_mem hmem, hlast]
      · have hlast : (as ++ [a]).filter (· ∉ l) = as.filter (· ∉ l) ++ [a] := by simp [h]
        rw [appendNew_append h, hlast, eraseDups_concat]

theorem nodup_eraseDups (l : List α) : l.eraseDups.Nodup := by
  induction l using List.reverseRecOn with
  | nil => simp
  | append_singleton l a ih =>
      rw [eraseDups_concat]
      exact nodup_appendNew ih a

theorem eraseDups_of_nodup {l : List α} (h : l.Nodup) : l.eraseDups = l := by
  induction l using List.reverseRecOn with
  | nil => rfl
  | append_singleton l a ih =>
      have hparts := List.nodup_append'.mp h
      have ha : a ∉ l := List.disjoint_singleton.mp hparts.2.2
      rw [eraseDups_concat, ih hparts.1, appendNew_of_not_mem ha]

theorem filter_appendNew (p : α → Bool) (l : List α) (a : α) :
    (appendNew l a).filter p = if p a then appendNew (l.filter p) a else l.filter p := by
  by_cases hp : p a = true
  · rw [if_pos hp]
    by_cases h : a ∈ l
    · rw [appendNew_of_mem h, appendNew_of_mem (List.mem_filter.mpr ⟨h, hp⟩)]
    · have hmem : a ∉ l.filter p := fun hin ↦ h (List.mem_filter.mp hin).1
      simp [appendNew_of_not_mem h, appendNew_of_not_mem hmem, hp]
  · rw [if_neg hp]
    by_cases h : a ∈ l
    · rw [appendNew_of_mem h]
    · simp [appendNew_of_not_mem h, hp]

theorem filter_eraseDups (p : α → Bool) (l : List α) :
    l.eraseDups.filter p = (l.filter p).eraseDups := by
  induction l using List.reverseRecOn with
  | nil => rfl
  | append_singleton l a ih =>
      rw [eraseDups_concat, filter_appendNew, ih, List.filter_append]
      cases hp : p a with
      | true => simp [hp, eraseDups_concat]
      | false => simp [hp]

end Duplicates

end ReplicaClient
