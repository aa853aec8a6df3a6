import ReplicaClient.Pool

/-!
# The slots of a pool

A pool has as many slots as its size.  A slot is taken by an idle connection, by one that a
caller holds, or by one that is being dialled for a caller.  `Accounted` says that the pool
counts its taken slots correctly; every change of the pool keeps this, so that the count
never has to be cut off at zero.
-/

namespace ReplicaClient
namespace Pool

variable {p : Pool} {out : List Nat}

/-! ## What a caller is told -/

/-- All that a request for a connection can lead to. -/
theorem request_cases (p : Pool) :
    (∃ k rest, p.phase = .connected ∧ p.idle = k :: rest ∧
      p.request = (.take ⟨k, p.generation, true⟩, { p with idle := rest })) ∨
    (p.phase = .connected ∧ p.idle = [] ∧ p.opened < p.size ∧
      p.request = (.replace p.generation, { p with opened := p.opened + 1 })) ∨
    p.request = (.wait, p) ∨
    ((p.phase = .uninitialized ∨ p.phase = .closed) ∧
      p.request = (.dialPool p.generation, { p with phase := .connecting })) := by
  cases hphase : p.phase with
  | uninitialized => simp [request, hphase]
  | closed => simp [request, hphase]
  | connecting => simp [request, hphase]
  | connected =>
      cases hidle : p.idle with
      | cons k rest => simp [request, hphase, hidle]
      | nil =>
          by_cases hroom : p.opened < p.size
          · simp [request, hphase, hidle, hroom]
          · simp [request, hphase, hidle, hroom]

/-! ## Counting -/

/-- The taken slots are counted: `out` lists the generations of all connections that are held
or being dialled for a caller, and those of the current generation take a slot. -/
structure Accounted (p : Pool) (out : List Nat) : Prop where
  opened_eq : p.idle.length + out.count p.generation = p.opened
  opened_le : p.opened ≤ p.size
  opened_eq_zero : p.phase ≠ .connected → p.opened = 0
  generation_le : ∀ g ∈ out, g ≤ p.generation

namespace Accounted

theorem ofConfig (config : Config) : (Pool.ofConfig config).Accounted [] where
  opened_eq := rfl
  opened_le := Nat.zero_le _
  opened_eq_zero _ := rfl
  generation_le := by simp

theorem perm {out' : List Nat} (h : p.Accounted out) (hperm : out.Perm out') :
    p.Accounted out' where
  opened_eq := hperm.count_eq p.generation ▸ h.opened_eq
  opened_le := h.opened_le
  opened_eq_zero := h.opened_eq_zero
  generation_le g hg := h.generation_le g (hperm.mem_iff.mpr hg)

theorem idle_length_le (h : p.Accounted out) : p.idle.length ≤ p.opened := by
  have := h.opened_eq
  omega

theorem idle_eq_nil (h : p.Accounted out) (hphase : p.phase ≠ .connected) : p.idle = [] := by
  have hle := h.idle_length_le
  rw [h.opened_eq_zero hphase] at hle
  exact List.eq_nil_of_length_eq_zero (Nat.le_zero.mp hle)

theorem opened_pos (h : p.Accounted out) (hout : p.generation ∈ out) : 0 < p.opened := by
  have hcount := List.count_pos_iff.mpr hout
  have := h.opened_eq
  omega

/-- Only a connected pool has anything out in its current generation. -/
theorem phase_eq (h : p.Accounted out) (hout : p.generation ∈ out) : p.phase = .connected := by
  have hpos := h.opened_pos hout
  exact Decidable.byContradiction fun hphase ↦
    Nat.ne_of_gt hpos (h.opened_eq_zero hphase)

theorem withNextId (h : p.Accounted out) (n : Nat) : { p with nextId := n }.Accounted out :=
  ⟨h.opened_eq, h.opened_le, h.opened_eq_zero, h.generation_le⟩

/-! ### Generations -/

/-- A generation that ends leaves nothing behind that counts. -/
theorem retire (h : p.Accounted out) {next : Phase} : (p.retire next).Accounted out where
  opened_eq := by
    have hnew : p.generation + 1 ∉ out := fun hmem ↦
      Nat.not_succ_le_self _ (h.generation_le _ hmem)
    simp [Pool.retire, List.count_eq_zero_of_not_mem hnew]
  opened_le := Nat.zero_le _
  opened_eq_zero _ := rfl
  generation_le g hg := Nat.le_succ_of_le (h.generation_le g hg)

theorem teardown (h : p.Accounted out) (g : Nat) : (p.teardown g).Accounted out := by
  unfold Pool.teardown
  split
  · exact h.retire
  · exact h

theorem close (h : p.Accounted out) : p.close.Accounted out := by
  unfold Pool.close
  split
  · exact h
  · exact h.retire

/-! ### Dialling -/

theorem dialPool (h : p.Accounted out) (hphase : p.phase = .uninitialized ∨ p.phase = .closed) :
    { p with phase := .connecting }.Accounted out where
  opened_eq := h.opened_eq
  opened_le := h.opened_le
  opened_eq_zero _ := h.opened_eq_zero (by rcases hphase with hp | hp <;> simp [hp])
  generation_le := h.generation_le

/-- A dial fills the slots of the pool it was begun for, and of no other. -/
theorem install (h : p.Accounted out) {g : Nat} {connections : List Connection}
    (hsize : connections.length ≤ p.size) : (p.install g connections).Accounted out := by
  unfold Pool.install
  split
  · rename_i hawaits
    obtain ⟨-, hphase⟩ : p.generation = g ∧ p.phase = .connecting := by
      simpa [awaits] using hawaits
    have hzero : p.opened = 0 := h.opened_eq_zero (by simp [hphase])
    have hcount : out.count p.generation = 0 := by
      have := h.opened_eq
      omega
    exact ⟨by simp [hcount], hsize, by simp, h.generation_le⟩
  · exact h

theorem dialFailed (h : p.Accounted out) (g : Nat) : (p.dialFailed g).Accounted out := by
  unfold Pool.dialFailed
  split
  · rename_i hawaits
    obtain ⟨-, hphase⟩ : p.generation = g ∧ p.phase = .connecting := by
      simpa [awaits] using hawaits
    exact ⟨h.opened_eq, h.opened_le, fun _ ↦ h.opened_eq_zero (by simp [hphase]), h.generation_le⟩
  · exact h

/-! ### Handing out and taking back -/

theorem take (h : p.Accounted out) {k : Connection} {rest : List Connection}
    (hidle : p.idle = k :: rest) : { p with idle := rest }.Accounted (p.generation :: out) where
  opened_eq := by
    have := h.opened_eq
    simp only [hidle, List.length_cons] at this
    simp only [List.count_cons_self]
    omega
  opened_le := h.opened_le
  opened_eq_zero := h.opened_eq_zero
  generation_le := by
    simpa using h.generation_le

theorem replace (h : p.Accounted out) (hphase : p.phase = .connected) (hroom : p.opened < p.size) :
    { p with opened := p.opened + 1 }.Accounted (p.generation :: out) where
  opened_eq := by
    have := h.opened_eq
    simp only [List.count_cons_self]
    omega
  opened_le := hroom
  opened_eq_zero hne := absurd hphase hne
  generation_le := by
    simpa using h.generation_le

theorem forget {g : Nat} (h : p.Accounted (g :: out)) : (p.forget g).Accounted out := by
  have hle : ∀ g' ∈ out, g' ≤ p.generation := fun g' hg' ↦
    h.generation_le g' (List.mem_cons_of_mem g hg')
  have heq := h.opened_eq
  unfold Pool.forget
  split
  · rename_i hgen
    subst hgen
    rw [List.count_cons_self] at heq
    refine ⟨?_, ?_, ?_, hle⟩
    · show p.idle.length + out.count p.generation = p.opened - 1
      omega
    · exact Nat.le_trans (Nat.sub_le _ _) h.opened_le
    · intro hphase
      exact absurd (h.phase_eq List.mem_cons_self) hphase
  · rename_i hgen
    rw [List.count_cons_of_ne (Ne.symm hgen)] at heq
    exact ⟨heq, h.opened_le, h.opened_eq_zero, hle⟩

/-- A connection that comes back in its own generation finds the pool connected, so its slot
becomes that of an idle connection. -/
theorem release {g : Nat} (h : p.Accounted (g :: out)) (k : Connection) :
    (p.release k g).Accounted out := by
  have hle : ∀ g' ∈ out, g' ≤ p.generation := fun g' hg' ↦
    h.generation_le g' (List.mem_cons_of_mem g hg')
  have heq := h.opened_eq
  unfold Pool.release
  split
  · rename_i hgen
    subst hgen
    have hphase := h.phase_eq List.mem_cons_self
    rw [List.count_cons_self] at heq
    rw [if_pos hphase]
    refine ⟨?_, h.opened_le, h.opened_eq_zero, hle⟩
    simp only [List.length_append, List.length_singleton]
    omega
  · rename_i hgen
    rw [List.count_cons_of_ne (Ne.symm hgen)] at heq
    exact ⟨heq, h.opened_le, h.opened_eq_zero, hle⟩

theorem giveBack {held : Held} (h : p.Accounted (held.generation :: out)) :
    (p.giveBack held).Accounted out := by
  unfold Pool.giveBack
  split
  · exact h.release held.connection
  · exact h.forget

end Accounted

/-! ## Connections of earlier generations -/

theorem giveBack_of_ne {held : Held} (h : p.generation ≠ held.generation) :
    p.giveBack held = p := by
  simp [giveBack, release, forget, h]

/-- What comes back adds at most one idle connection. -/
theorem idle_giveBack_sublist (p : Pool) (held : Held) :
    (p.giveBack held).size = p.size ∧ (p.giveBack held).nextId = p.nextId ∧
      (p.giveBack held).idle.Sublist (p.idle ++ [held.connection]) := by
  rw [giveBack, release, forget]
  repeat' split
  all_goals simp

/-- Only a connection that its holder declares sound becomes idle when it comes back. -/
theorem mem_idle_giveBack {held : Held} {k : Connection} (h : k ∈ (p.giveBack held).idle) :
    k ∈ p.idle ∨ k = held.connection ∧ held.valid = true := by
  unfold giveBack at h
  split at h
  · rename_i hvalid
    unfold release at h
    split at h
    · split at h
      · rcases List.mem_append.mp h with h | h
        · exact Or.inl h
        · exact Or.inr ⟨List.mem_singleton.mp h, hvalid⟩
      · exact Or.inl h
    · exact Or.inl h
  · unfold forget at h
    split at h <;> exact Or.inl h

theorem idle_teardown_subset (p : Pool) (g : Nat) : (p.teardown g).idle ⊆ p.idle := by
  unfold teardown
  split
  · exact List.nil_subset _
  · exact List.Subset.refl _

theorem teardown_of_ne {g : Nat} (h : p.generation ≠ g) : p.teardown g = p := by
  simp [teardown, h]

/-- A closed pool has begun a new generation, unless nothing of the old one was left. -/
theorem close_cases (p : Pool) :
    (p.close = p ∧ p.opened = 0) ∨ p.close = p.retire .closed := by
  unfold close
  split
  · rename_i h
    exact Or.inl ⟨rfl, h.1⟩
  · exact Or.inr rfl

end Pool
end ReplicaClient
