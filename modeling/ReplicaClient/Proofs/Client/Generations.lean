import Mathlib.Data.List.Nodup
import ReplicaClient.Proofs.Client.Ownership

/-!
# Generations of connections

The number of a connection belongs to the generation in which it was handed out.  While that
generation lasts the connection may come back and be handed out again; once it has ended, the
connection is out for good, and what its holder does no longer reaches the pool.
-/

namespace ReplicaClient
namespace Session

/-! ## Moves and generations -/

/-- The connection with the number `x` is idle only in the generation `g`, and whoever holds it
holds it for that generation. -/
structure Bound (x g : Nat) (s : Session) : Prop where
  used : x < s.client.pool.nextId
  idle : ∀ k ∈ s.client.pool.idle, k.id = x → s.client.pool.generation = g
  held : ∀ h ∈ s.held, h.connection.id = x → h.generation = g

theorem Move.generation_le {s s' : Session} (hmove : Move s s') :
    s.client.pool.generation ≤ s'.client.pool.generation := by
  cases hmove with
  | lose hopens => exact Nat.le_of_eq hopens.generation_eq.symm
  | retire next => exact Nat.le_succ _
  | teardown g =>
      dsimp only
      unfold Pool.teardown
      split
      · exact Nat.le_succ _
      · exact Nat.le_refl _
  | dialPool hphase => exact Nat.le_refl _
  | install hopens hlen g =>
      refine Nat.le_trans (Nat.le_of_eq hopens.generation_eq.symm) ?_
      dsimp only
      unfold Pool.install
      split <;> exact Nat.le_refl _
  | dialFailed g =>
      dsimp only
      unfold Pool.dialFailed
      split <;> exact Nat.le_refl _
  | take hidle => exact Nat.le_refl _
  | replace hphase hroom hopens => exact Nat.le_of_eq hopens.generation_eq.symm
  | giveBack hi =>
      dsimp only [Client.giveBack]
      unfold Pool.giveBack Pool.release Pool.forget
      repeat' split
      all_goals exact Nat.le_refl _
  | discard hi => exact Nat.le_refl _
  | reconnect hi hopens => exact Nat.le_of_eq hopens.generation_eq.symm

theorem Moves.generation_le {s s' : Session} (hmoves : Moves s s') :
    s.client.pool.generation ≤ s'.client.pool.generation := by
  induction hmoves with
  | refl => exact Nat.le_refl _
  | tail _ hmove ih => exact Nat.le_trans ih hmove.generation_le

theorem Move.bound {x g : Nat} {s s' : Session} (hmove : Move s s') (h : Bound x g s) :
    Bound x g s' := by
  obtain ⟨hused, hidle, hheld⟩ := h
  cases hmove with
  | lose hopens =>
      refine ⟨Nat.lt_of_lt_of_le hused hopens.nextId_le, ?_, hheld⟩
      dsimp only
      rw [hopens.idle_eq, hopens.generation_eq]
      exact hidle
  | retire next => exact ⟨hused, by simp [Pool.retire], hheld⟩
  | @teardown c held g' =>
      dsimp only at hused hidle hheld
      by_cases hgen : c.pool.generation = g'
      · exact ⟨by simpa [Pool.teardown, Pool.retire, hgen] using hused,
          by simp [Pool.teardown, Pool.retire, hgen], hheld⟩
      · rw [Pool.teardown_of_ne hgen]
        exact ⟨hused, hidle, hheld⟩
  | dialPool hphase => exact ⟨hused, hidle, hheld⟩
  | @install c c' held ks hopens hlen g' =>
      dsimp only at hused hidle hheld
      have hlt : x < c'.pool.nextId := Nat.lt_of_lt_of_le hused hopens.nextId_le
      have hnew : ∀ k ∈ ks, k.id ≠ x := fun k hk ↦
        Nat.ne_of_gt (Nat.lt_of_lt_of_le hused (hopens.id_range k hk).1)
      unfold Pool.install
      split
      · exact ⟨hlt, fun k hk hx ↦ absurd hx (hnew k hk), hheld⟩
      · refine ⟨hlt, ?_, hheld⟩
        dsimp only
        rw [hopens.idle_eq, hopens.generation_eq]
        exact hidle
  | dialFailed g' =>
      unfold Pool.dialFailed
      split <;> exact ⟨hused, hidle, hheld⟩
  | @take c held k rest hfirst =>
      dsimp only at hused hidle hheld
      rw [hfirst] at hidle
      refine ⟨hused, fun k' hk' ↦ hidle k' (List.mem_cons_of_mem k hk'), ?_⟩
      intro h hh hx
      rcases List.mem_append.mp hh with hh | hh
      · exact hheld h hh hx
      · obtain rfl := List.mem_singleton.mp hh
        exact hidle k List.mem_cons_self hx
  | @replace c c' held k hphase hroom hopens =>
      dsimp only at hused hidle hheld
      refine ⟨Nat.lt_of_lt_of_le hused hopens.nextId_le, ?_, ?_⟩
      · dsimp only
        rw [hopens.idle_eq, hopens.generation_eq]
        exact hidle
      · intro h hh hx
        rcases List.mem_append.mp hh with hh | hh
        · exact hheld h hh hx
        · obtain rfl := List.mem_singleton.mp hh
          have hnew := (hopens.id_range k (List.mem_singleton_self k)).1
          exact absurd hx (Nat.ne_of_gt (Nat.lt_of_lt_of_le hused hnew))
  | @giveBack c held i h hi =>
      dsimp only at hused hidle hheld
      have hothers : ∀ h' ∈ held.eraseIdx i, h'.connection.id = x → h'.generation = g :=
        fun h' hh' ↦ hheld h' (List.mem_of_mem_eraseIdx hh')
      dsimp only [Client.giveBack]
      by_cases hgen : c.pool.generation = h.generation
      · -- Only now can the connection become idle, and then its generation is the pool's.
        have hback : ∀ k ∈ c.pool.idle ++ [h.connection], k.id = x → c.pool.generation = g := by
          intro k hk hx
          rcases List.mem_append.mp hk with hk | hk
          · exact hidle k hk hx
          · obtain rfl := List.mem_singleton.mp hk
            exact hgen.trans (hheld h (List.mem_of_getElem? hi) hx)
        unfold Pool.giveBack Pool.release Pool.forget
        simp only [if_pos hgen]
        repeat' split
        · exact ⟨hused, hback, hothers⟩
        · exact ⟨hused, hidle, hothers⟩
        · exact ⟨hused, hidle, hothers⟩
      · rw [Pool.giveBack_of_ne hgen]
        exact ⟨hused, hidle, hothers⟩
  | @discard c held i h hi =>
      dsimp only at hused hidle hheld
      refine ⟨hused, hidle, ?_⟩
      intro h' hh' hx
      rcases List.mem_or_eq_of_mem_set hh' with hh' | rfl
      · exact hheld h' hh' hx
      · exact hheld h (List.mem_of_getElem? hi) hx
  | @reconnect c c' held i h k hi hopens =>
      dsimp only at hused hidle hheld
      refine ⟨Nat.lt_of_lt_of_le hused hopens.nextId_le, ?_, ?_⟩
      · dsimp only
        rw [hopens.idle_eq, hopens.generation_eq]
        exact hidle
      · intro h' hh' hx
        rcases List.mem_or_eq_of_mem_set hh' with hh' | rfl
        · exact hheld h' hh' hx
        · have hnew := (hopens.id_range k (List.mem_singleton_self k)).1
          exact absurd hx (Nat.ne_of_gt (Nat.lt_of_lt_of_le hused hnew))

theorem Moves.bound {x g : Nat} {s s' : Session} (hmoves : Moves s s') (h : Bound x g s) :
    Bound x g s' := by
  induction hmoves with
  | refl => exact h
  | tail _ hmove ih => exact hmove.bound ih

/-! ## Runs -/

theorem run_moves (s : Session) (actions : List Action) : Moves s (s.run actions) := by
  induction actions generalizing s with
  | nil => exact .refl
  | cons a actions ih => exact (s.step_moves a).trans (ih (s.step a))

theorem run_custody (config : Config) (environment : Environment) (actions : List Action) :
    ((new config environment).run actions).client.Custody config.poolSize
      ((new config environment).run actions).held :=
  (run_moves _ actions).custody (.new config environment)

section Stale

variable {size : Nat} {s : Session} (h : s.client.Custody size s.held)
include h

theorem generation_le {k : Held} (hk : k ∈ s.held) : k.generation ≤ s.client.pool.generation :=
  h.accounted.generation_le _ (List.mem_map_of_mem hk)

/-- A held connection keeps its generation as long as anybody holds it. -/
theorem bound_of_held {k : Held} (hk : k ∈ s.held) : Bound k.connection.id k.generation s := by
  have hmem : k.connection ∈ s.held.map Held.connection := List.mem_map_of_mem hk
  have hnodup := h.exclusive.id_nodup
  rw [Client.owned, List.map_append, List.nodup_append] at hnodup
  obtain ⟨-, hheld, hapart⟩ := hnodup
  refine ⟨h.exclusive.id_lt _ (List.mem_append_right _ hmem), ?_, ?_⟩
  · intro k' hk' hx
    exact absurd hx (hapart _ (List.mem_map_of_mem hk') _ (List.mem_map_of_mem hmem))
  · intro k' hk' hx
    rw [List.map_map] at hheld
    exact congrArg Held.generation (List.inj_on_of_nodup_map hheld hk' hk hx)

/-- Once its generation has ended, a held connection never becomes idle again. -/
theorem never_idle {k : Held} (hk : k ∈ s.held) (hstale : k.generation < s.client.pool.generation)
    (future : List Action) :
    ∀ k' ∈ (s.run future).client.pool.idle, k'.id ≠ k.connection.id := by
  intro k' hk' hx
  have hmoves := s.run_moves future
  have hgen := (hmoves.bound (bound_of_held h hk)).idle k' hk' hx
  have hle := hmoves.generation_le
  omega

theorem generation_lt_connect (hsize : 1 ≤ size) :
    s.client.pool.generation < (s.step .connect).client.pool.generation := by
  have hpool : s.client.pool.size ≠ 0 := by
    have := h.pool_size
    omega
  have hcheck : s.client.pool.checkSize = .ok () := if_neg hpool
  have hdial := (establish_moves { s.client with pool := s.client.pool.retire .connecting } s.held
    (s.client.pool.generation + 1)).generation_le
  simp only [step, Client.connect, hcheck]
  exact hdial

/-- Whoever holds a connection when its generation ends holds one that no longer counts. -/
theorem stale_of_endsGeneration (hsize : 1 ≤ size) {a : Action} (hends : s.EndsGeneration a) :
    ∀ k ∈ (s.step a).held, k.generation < (s.step a).client.pool.generation := by
  cases a with
  | connect =>
      intro k hk
      exact Nat.lt_of_le_of_lt (generation_le h hk) (generation_lt_connect h hsize)
  | close =>
      intro k hk
      have hle := generation_le h hk
      rcases s.client.pool.close_cases with ⟨heq, hzero⟩ | heq
      · have hne : k.generation ≠ s.client.pool.generation := by
          intro hgen
          have hpos := h.accounted.opened_pos (hgen ▸ List.mem_map_of_mem hk)
          omega
        simp only [step, Client.close, heq]
        exact Nat.lt_of_le_of_ne hle hne
      · simp only [step, Client.close, heq]
        exact Nat.lt_succ_of_le hle
  | invalidate i =>
      obtain ⟨k₀, hi, hgen⟩ := hends
      intro k hk
      have hle : k.generation ≤ s.client.pool.generation := by
        simp only [step, onHeld, hi, invalidate, Client.invalidate] at hk
        rcases List.mem_or_eq_of_mem_set hk with hk | rfl
        · exact generation_le h hk
        · exact Nat.le_of_eq hgen
      simp only [step, onHeld, hi, invalidate, Client.invalidate, Pool.teardown, hgen, if_pos]
      exact Nat.lt_succ_of_le hle
  | acquire => exact hends.elim
  | drop i => exact hends.elim
  | discard i => exact hends.elim
  | reconnect i => exact hends.elim

omit h in
/-- What is done with a connection of an ended generation does not reach the pool. -/
theorem pool_eq_of_stale {i : Nat} {k : Held} (hi : s.held[i]? = some k)
    (hstale : k.generation < s.client.pool.generation) :
    ∀ a ∈ [Action.drop i, .discard i, .invalidate i],
      (s.step a).client.pool = s.client.pool := by
  have hne : s.client.pool.generation ≠ k.generation := Nat.ne_of_gt hstale
  intro a ha
  simp only [List.mem_cons, List.not_mem_nil, or_false] at ha
  rcases ha with rfl | rfl | rfl
  · simp only [step, onHeld, hi, drop, Client.giveBack]
    exact Pool.giveBack_of_ne hne
  · simp only [step, onHeld, hi, discard]
  · simp only [step, onHeld, hi, invalidate, Client.invalidate]
    exact Pool.teardown_of_ne hne

end Stale

/-! ## All that holds of a session -/

structure Orderly (size : Nat) (s : Session) : Prop where
  /-- Idle connections and held ones of the current generation are as many as the pool counts. -/
  opened_eq : s.client.pool.idle.length +
    (s.held.filter (·.generation = s.client.pool.generation)).length = s.client.pool.opened
  opened_le : s.client.pool.opened ≤ size
  /-- A pool that is not connected has no connections. -/
  unconnected : s.client.pool.phase ≠ .connected →
    s.client.pool.opened = 0 ∧ s.client.pool.idle = []
  /-- No connection is idle twice, or idle and held. -/
  nodup : (s.client.pool.idle.map Connection.id ++ s.held.map (·.connection.id)).Nodup
  /-- When a generation ends, all held connections belong to the past. -/
  stale_of_ends : ∀ a, s.EndsGeneration a →
    ∀ k ∈ (s.step a).held, k.generation < (s.step a).client.pool.generation
  /-- What is done with a connection of the past does not touch the pool. -/
  stale_pool : ∀ i k, s.held[i]? = some k → k.generation < s.client.pool.generation →
    ∀ a ∈ [Action.drop i, .discard i, .invalidate i], (s.step a).client.pool = s.client.pool
  /-- A connection of the past never becomes idle again. -/
  stale_idle : ∀ k ∈ s.held, k.generation < s.client.pool.generation →
    ∀ future, ∀ k' ∈ (s.run future).client.pool.idle, k'.id ≠ k.connection.id
  /-- The count of what callers hold is not cut off at zero. -/
  checkedOut_exact : s.client.pool.idle.length ≤ s.client.pool.opened
  /-- Nor is the count of slots when a held connection is given back. -/
  giveBack_exact : ∀ k ∈ s.held, k.generation = s.client.pool.generation →
    0 < s.client.pool.opened
  /-- Nor is it when the dial for a missing connection has failed. -/
  replace_exact : ∀ g granted, s.client.pool.request = (.replace g, granted) →
    0 < (Client.dial { s.client with pool := granted }).2.pool.opened

/-- A dial for a missing connection ends with the slot for it still taken. -/
theorem opened_pos_of_replace {c : Client} {g : Nat} {granted : Pool}
    (hrequest : c.pool.request = (.replace g, granted)) :
    0 < (Client.dial { c with pool := granted }).2.pool.opened := by
  have hgranted : granted.opened = c.pool.opened + 1 := by
    rcases c.pool.request_cases with ⟨k, rest, -, -, heq⟩ | ⟨-, -, -, heq⟩ | heq | ⟨-, heq⟩
    all_goals
      rw [heq] at hrequest
      cases hrequest
    rfl
  rcases Client.dial_cases { c with pool := granted } with
    ⟨e, c', heq, hopens⟩ | ⟨k, c', heq, hopens⟩
  · rw [heq, hopens.pool]
    exact hgranted ▸ Nat.succ_pos _
  · rw [heq, hopens.pool]
    exact hgranted ▸ Nat.succ_pos _

/-- Whatever callers do and whichever dials fail, the session stays orderly. -/
theorem orderly_run (config : Config) (environment : Environment) (hsize : 1 ≤ config.poolSize)
    (past : List Action) : ((new config environment).run past).Orderly config.poolSize := by
  have h := run_custody config environment past
  refine ⟨?_, ?_, ?_, ?_, ?_, ?_, ?_, h.accounted.idle_length_le, ?_, ?_⟩
  · rw [← List.countP_eq_length_filter, ← h.accounted.opened_eq, List.count_eq_countP,
      List.countP_map]
    rfl
  · exact h.pool_size ▸ h.accounted.opened_le
  · intro hphase
    exact ⟨h.accounted.opened_eq_zero hphase, h.accounted.idle_eq_nil hphase⟩
  · have hnodup := h.exclusive.id_nodup
    rwa [Client.owned, List.map_append, List.map_map] at hnodup
  · intro a hends
    exact stale_of_endsGeneration h hsize hends
  · intro i k hi hstale
    exact pool_eq_of_stale hi hstale
  · intro k hk hstale
    exact never_idle h hk hstale
  · intro k hk hgen
    exact h.accounted.opened_pos (hgen ▸ List.mem_map_of_mem hk)
  · intro g granted hrequest
    exact opened_pos_of_replace hrequest

/-- Two connections, one of which condemns the pool, which is then dialled anew. -/
theorem orderly_run_condemned : 1 ≤ 2 ∧
    ((new { poolSize := 2 } { accepts := fun _ ↦ true, react := fun _ ↦ {} }).run
      [.acquire, .acquire, .invalidate 0, .acquire, .drop 1]).Orderly 2 :=
  ⟨by decide, orderly_run { poolSize := 2 } { accepts := fun _ ↦ true, react := fun _ ↦ {} }
    (by decide) [.acquire, .acquire, .invalidate 0, .acquire, .drop 1]⟩

end Session
end ReplicaClient
