import ReplicaClient.Proofs.Pool.Slots

/-!
# The dials of a pool

A pool that is connecting waits for one dial, the one of its current generation, and a pool in any
other phase waits for none.  `Dialled` says this of the dials that are under way; every change of
the pool keeps it, whatever else happens while a dial is under way.
-/

namespace ReplicaClient
namespace Pool

variable {p : Pool} {dials : List Nat}

/-- Of the dials that are under way, given by the generations they were begun for, just one is for
the current generation while the pool is connecting, and none is otherwise. -/
structure Dialled (p : Pool) (dials : List Nat) : Prop where
  count_eq : dials.count p.generation = if p.phase = .connecting then 1 else 0
  generation_le : ∀ g ∈ dials, g ≤ p.generation

theorem awaits_iff {g : Nat} :
    p.awaits g = true ↔ p.generation = g ∧ p.phase = .connecting := by
  simp [awaits]

namespace Dialled

theorem ofConfig (config : Config) : (Pool.ofConfig config).Dialled [] where
  count_eq := rfl
  generation_le := by simp

theorem perm {dials' : List Nat} (h : p.Dialled dials) (hperm : dials.Perm dials') :
    p.Dialled dials' where
  count_eq := hperm.count_eq p.generation ▸ h.count_eq
  generation_le g hg := h.generation_le g (hperm.mem_iff.mpr hg)

/-- Of a pool, only the generation and the phase matter. -/
theorem congr {p' : Pool} (h : p.Dialled dials) (hgeneration : p'.generation = p.generation)
    (hphase : p'.phase = p.phase) : p'.Dialled dials where
  count_eq := by
    rw [hgeneration, hphase]
    exact h.count_eq
  generation_le g hg := hgeneration ▸ h.generation_le g hg

theorem count_eq_zero (h : p.Dialled dials) (hphase : p.phase ≠ .connecting) :
    dials.count p.generation = 0 := by
  rw [h.count_eq, if_neg hphase]

/-- A dial for the current generation is one that the pool waits for. -/
theorem awaits_of_mem (h : p.Dialled dials) (hmem : p.generation ∈ dials) :
    p.awaits p.generation = true := by
  rw [awaits_iff]
  refine ⟨rfl, Decidable.byContradiction fun hphase ↦ ?_⟩
  have hpos := List.count_pos_iff.mpr hmem
  rw [h.count_eq_zero hphase] at hpos
  exact Nat.lt_irrefl 0 hpos

/-! ### Generations -/

theorem not_mem_succ (h : p.Dialled dials) : p.generation + 1 ∉ dials := fun hmem ↦
  Nat.not_succ_le_self _ (h.generation_le _ hmem)

/-- A generation that ends leaves all dials behind. -/
theorem retire (h : p.Dialled dials) {next : Phase} (hnext : next ≠ .connecting) :
    (p.retire next).Dialled dials where
  count_eq := by
    show dials.count (p.generation + 1) = if next = .connecting then 1 else 0
    rw [if_neg hnext, List.count_eq_zero_of_not_mem h.not_mem_succ]
  generation_le g hg := Nat.le_succ_of_le (h.generation_le g hg)

theorem teardown (h : p.Dialled dials) (g : Nat) : (p.teardown g).Dialled dials := by
  by_cases hgen : p.generation = g
  · rw [Pool.teardown, if_pos hgen]
    exact h.retire (by decide)
  · rw [teardown_of_ne hgen]
    exact h

theorem close (h : p.Dialled dials) : p.close.Dialled dials := by
  rcases p.close_cases with ⟨heq, -⟩ | heq
  · rw [heq]
    exact h
  · rw [heq]
    exact h.retire (by decide)

/-! ### Dials begin -/

/-- A new generation begins with a dial of its own. -/
theorem redial (h : p.Dialled dials) :
    (p.retire .connecting).Dialled ((p.generation + 1) :: dials) where
  count_eq := by
    show ((p.generation + 1) :: dials).count (p.generation + 1) = 1
    rw [List.count_cons_self, List.count_eq_zero_of_not_mem h.not_mem_succ]
  generation_le g hg := by
    rcases List.mem_cons.mp hg with rfl | hg
    · exact Nat.le_refl _
    · exact Nat.le_succ_of_le (h.generation_le g hg)

theorem dialPool (h : p.Dialled dials) (hphase : p.phase ≠ .connecting) :
    { p with phase := .connecting }.Dialled (p.generation :: dials) where
  count_eq := by
    show (p.generation :: dials).count p.generation = 1
    rw [List.count_cons_self, h.count_eq_zero hphase]
  generation_le g hg := by
    rcases List.mem_cons.mp hg with rfl | hg
    · exact Nat.le_refl _
    · exact h.generation_le g hg

/-! ### Dials end -/

/-- The end of the dial that the pool waits for leads to another phase. -/
theorem landed {g : Nat} (h : p.Dialled (g :: dials)) (hawaits : p.awaits g = true) {p' : Pool}
    (hgeneration : p'.generation = p.generation) (hphase : p'.phase ≠ .connecting) :
    p'.Dialled dials where
  count_eq := by
    obtain ⟨rfl, hconnecting⟩ := awaits_iff.mp hawaits
    have hcount := h.count_eq
    rw [List.count_cons_self, if_pos hconnecting] at hcount
    rw [hgeneration, if_neg hphase]
    exact Nat.succ.inj hcount
  generation_le g' hg' := hgeneration ▸ h.generation_le g' (List.mem_cons_of_mem g hg')

/-- Nobody waits for the end of a dial that was overtaken. -/
theorem overtaken {g : Nat} (h : p.Dialled (g :: dials)) (hawaits : ¬p.awaits g = true) :
    p.Dialled dials where
  count_eq := by
    have hne : g ≠ p.generation := by
      rintro rfl
      exact hawaits (h.awaits_of_mem List.mem_cons_self)
    have hcount := h.count_eq
    rwa [List.count_cons_of_ne hne] at hcount
  generation_le g' hg' := h.generation_le g' (List.mem_cons_of_mem g hg')

theorem install {g : Nat} (h : p.Dialled (g :: dials)) (connections : List Connection) :
    (p.install g connections).Dialled dials := by
  by_cases hawaits : p.awaits g = true
  · rw [Pool.install, if_pos hawaits]
    exact h.landed hawaits rfl Phase.noConfusion
  · rw [Pool.install, if_neg hawaits]
    exact h.overtaken hawaits

theorem dialFailed {g : Nat} (h : p.Dialled (g :: dials)) : (p.dialFailed g).Dialled dials := by
  by_cases hawaits : p.awaits g = true
  · rw [Pool.dialFailed, if_pos hawaits]
    exact h.landed hawaits rfl Phase.noConfusion
  · rw [Pool.dialFailed, if_neg hawaits]
    exact h.overtaken hawaits

/-! ### Handing out and taking back -/

theorem giveBack (h : p.Dialled dials) (held : Held) : (p.giveBack held).Dialled dials := by
  have hsame : (p.giveBack held).generation = p.generation ∧
      (p.giveBack held).phase = p.phase := by
    rw [Pool.giveBack, release, forget]
    repeat' split
    all_goals exact ⟨rfl, rfl⟩
  exact h.congr hsame.1 hsame.2

end Dialled
end Pool
end ReplicaClient
