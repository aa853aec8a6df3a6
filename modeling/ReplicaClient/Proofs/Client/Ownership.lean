import ReplicaClient.Proofs.Client.Custody

/-!
# Slots and owners in every session

In every session the slots of the pool are accounted for, every connection has one owner, and a
connection that was handed out in a generation that has ended stays out for good.
-/

namespace ReplicaClient

/-! ## Positions in lists -/

section Positions

variable {α β : Type} {l : List α} {i : Nat} {a : α}

/-- What stands at a position, and the rest. -/
theorem perm_cons_eraseIdx (hi : l[i]? = some a) : l.Perm (a :: l.eraseIdx i) := by
  obtain ⟨hlt, rfl⟩ := List.getElem?_eq_some_iff.mp hi
  exact (List.getElem_cons_eraseIdx_perm hlt).symm

theorem map_set_of_eq {f : α → β} {a' : α} (hi : l[i]? = some a) (h : f a' = f a) :
    (l.set i a').map f = l.map f := by
  obtain ⟨hlt, rfl⟩ := List.getElem?_eq_some_iff.mp hi
  rw [List.map_set, h, ← List.getElem_map f (h := by simpa using hlt), List.set_getElem_self]

end Positions

namespace Client

/-! ## One owner for every connection -/

/-- The connections are pairwise different, in the pool as on the network, and all of them have
been opened. -/
structure Exclusive (c : Client) (ks : List Connection) : Prop where
  id_nodup : (ks.map Connection.id).Nodup
  channel_nodup : (ks.map Connection.channel).Nodup
  id_lt : ∀ k ∈ ks, k.id < c.pool.nextId
  channel_range : ∀ k ∈ ks, 0 < k.channel ∧ k.channel ≤ c.network.channels.length

namespace Exclusive

variable {c c' : Client} {ks ks' new : List Connection}

theorem sublist (h : c.Exclusive ks) (hsub : ks'.Sublist ks) : c.Exclusive ks' where
  id_nodup := (hsub.map _).nodup h.id_nodup
  channel_nodup := (hsub.map _).nodup h.channel_nodup
  id_lt k hk := h.id_lt k (hsub.mem hk)
  channel_range k hk := h.channel_range k (hsub.mem hk)

theorem perm (h : c.Exclusive ks) (hperm : ks.Perm ks') : c.Exclusive ks' where
  id_nodup := (hperm.map _).nodup h.id_nodup
  channel_nodup := (hperm.map _).nodup h.channel_nodup
  id_lt k hk := h.id_lt k (hperm.mem_iff.mpr hk)
  channel_range k hk := h.channel_range k (hperm.mem_iff.mpr hk)

/-- Of a pool, only the numbers it has given out matter. -/
theorem withPool (h : c.Exclusive ks) {pool : Pool} (hid : pool.nextId = c.pool.nextId) :
    Exclusive { c with pool } ks where
  id_nodup := h.id_nodup
  channel_nodup := h.channel_nodup
  id_lt k hk := hid ▸ h.id_lt k hk
  channel_range := h.channel_range

/-- Connections that are opened differ from all earlier ones. -/
theorem opens (h : c.Exclusive ks) (hopens : c.Opens new c') : c'.Exclusive (ks ++ new) where
  id_nodup := by
    rw [List.map_append, List.nodup_append]
    refine ⟨h.id_nodup, hopens.id_nodup, ?_⟩
    intro a ha b hb
    obtain ⟨k, hk, rfl⟩ := List.mem_map.mp ha
    obtain ⟨k', hk', rfl⟩ := List.mem_map.mp hb
    exact Nat.ne_of_lt (Nat.lt_of_lt_of_le (h.id_lt k hk) (hopens.id_range k' hk').1)
  channel_nodup := by
    rw [List.map_append, List.nodup_append]
    refine ⟨h.channel_nodup, hopens.channel_nodup, ?_⟩
    intro a ha b hb
    obtain ⟨k, hk, rfl⟩ := List.mem_map.mp ha
    obtain ⟨k', hk', rfl⟩ := List.mem_map.mp hb
    exact Nat.ne_of_lt
      (Nat.lt_of_le_of_lt (h.channel_range k hk).2 (hopens.channel_range k' hk').1)
  id_lt k hk := by
    rcases List.mem_append.mp hk with hk | hk
    · exact Nat.lt_of_lt_of_le (h.id_lt k hk) hopens.nextId_le
    · exact (hopens.id_range k hk).2
  channel_range k hk := by
    rcases List.mem_append.mp hk with hk | hk
    · exact ⟨(h.channel_range k hk).1,
        Nat.le_trans (h.channel_range k hk).2 hopens.length_channels_le⟩
    · exact ⟨Nat.zero_lt_of_lt (hopens.channel_range k hk).1, (hopens.channel_range k hk).2⟩

end Exclusive

/-! ## What every move keeps -/

def owned (c : Client) (held : List Held) : List Connection :=
  c.pool.idle ++ held.map Held.connection

/-- The pool has `size` slots, which are accounted for, and each connection has one owner. -/
structure Custody (size : Nat) (c : Client) (held : List Held) : Prop where
  pool_size : c.pool.size = size
  config_size : c.config.poolSize = size
  accounted : c.pool.Accounted (held.map Held.generation)
  exclusive : c.Exclusive (c.owned held)

namespace Custody

variable {size : Nat} {c c' : Client} {held : List Held}

theorem new (config : Config) (environment : Environment) :
    Custody config.poolSize (.new config environment) [] where
  pool_size := rfl
  config_size := rfl
  accounted := .ofConfig config
  exclusive := ⟨List.nodup_nil, List.nodup_nil, by simp [owned, Client.new, Pool.ofConfig],
    by simp [owned, Client.new, Pool.ofConfig]⟩

/-- A pool in another state that lacks no slot and has no more idle connections. -/
theorem withPool (h : Custody size c held) {pool : Pool} (hsize : pool.size = c.pool.size)
    (hid : pool.nextId = c.pool.nextId) (hidle : pool.idle.Sublist c.pool.idle)
    (hacc : pool.Accounted (held.map Held.generation)) : Custody size { c with pool } held where
  pool_size := hsize.trans h.pool_size
  config_size := h.config_size
  accounted := hacc
  exclusive := (h.exclusive.withPool hid).sublist (hidle.append (List.Sublist.refl _))

theorem withNetwork (h : Custody size c held) {network : Network}
    (hlen : network.channels.length = c.network.channels.length) :
    Custody size { c with network } held where
  pool_size := h.pool_size
  config_size := h.config_size
  accounted := h.accounted
  exclusive := ⟨h.exclusive.id_nodup, h.exclusive.channel_nodup, h.exclusive.id_lt,
    fun k hk ↦ hlen ▸ h.exclusive.channel_range k hk⟩

theorem lose (h : Custody size c held) (hopens : c.Opens [] c') : Custody size c' held where
  pool_size := hopens.size_eq.trans h.pool_size
  config_size := hopens.config ▸ h.config_size
  accounted := by
    rw [hopens.pool]
    exact h.accounted.withNextId _
  exclusive := by
    have hall := h.exclusive.opens hopens
    rwa [List.append_nil, owned, ← hopens.idle_eq] at hall

theorem retire (h : Custody size c held) (next : Phase) :
    Custody size { c with pool := c.pool.retire next } held :=
  h.withPool rfl rfl (List.nil_sublist _) h.accounted.retire

theorem teardown (h : Custody size c held) (g : Nat) :
    Custody size { c with pool := c.pool.teardown g } held := by
  have hacc := h.accounted.teardown g
  unfold Pool.teardown at hacc ⊢
  split
  · exact h.retire .uninitialized
  · exact h

theorem dialPool (h : Custody size c held)
    (hphase : c.pool.phase = .uninitialized ∨ c.pool.phase = .closed) :
    Custody size { c with pool := { c.pool with phase := .connecting } } held :=
  h.withPool rfl rfl (List.Sublist.refl _) (h.accounted.dialPool hphase)

theorem dialFailed (h : Custody size c held) (g : Nat) :
    Custody size { c with pool := c.pool.dialFailed g } held := by
  have hacc := h.accounted.dialFailed g
  unfold Pool.dialFailed at hacc ⊢
  split
  · rw [if_pos ‹_›] at hacc
    exact h.withPool rfl rfl (List.Sublist.refl _) hacc
  · exact h

theorem install (h : Custody size c held) {ks : List Connection} (hopens : c.Opens ks c')
    (hlen : ks.length = c.config.poolSize) (g : Nat) :
    Custody size { c' with pool := c'.pool.install g ks } held := by
  have hlose := h.lose hopens.drop
  have hsize : ks.length ≤ c'.pool.size :=
    Nat.le_of_eq (hlen.trans (h.config_size.trans hlose.pool_size.symm))
  have hacc := hlose.accounted.install (g := g) hsize
  unfold Pool.install at hacc ⊢
  split
  · rw [if_pos ‹_›] at hacc
    refine ⟨hlose.pool_size, hlose.config_size, hacc, ?_⟩
    have hall := (h.exclusive.opens hopens).perm List.perm_append_comm
    refine (hall.sublist ?_).withPool rfl
    exact (List.Sublist.refl ks).append (List.sublist_append_right _ _)
  · exact hlose

theorem take (h : Custody size c held) {k : Connection} {rest : List Connection}
    (hidle : c.pool.idle = k :: rest) :
    Custody size { c with pool := { c.pool with idle := rest } }
      (held ++ [⟨k, c.pool.generation, true⟩]) where
  pool_size := h.pool_size
  config_size := h.config_size
  accounted := by
    rw [List.map_append]
    exact (h.accounted.take hidle).perm (@List.perm_append_comm _ [c.pool.generation] _)
  exclusive := by
    have hall := h.exclusive
    rw [owned, hidle] at hall
    refine (hall.perm ?_).withPool rfl
    rw [owned, List.map_append, ← List.append_assoc]
    exact @List.perm_append_comm _ [k] _

theorem replace (h : Custody size c held) {k : Connection} (hphase : c.pool.phase = .connected)
    (hroom : c.pool.opened < c.pool.size)
    (hopens : { c with pool := { c.pool with opened := c.pool.opened + 1 } }.Opens [k] c') :
    Custody size c' (held ++ [⟨k, c.pool.generation, true⟩]) where
  pool_size := hopens.size_eq.trans h.pool_size
  config_size := hopens.config ▸ h.config_size
  accounted := by
    rw [List.map_append, hopens.pool]
    exact ((h.accounted.replace hphase hroom).withNextId _).perm
      (@List.perm_append_comm _ [c.pool.generation] _)
  exclusive := by
    have hgranted : Exclusive { c with pool := { c.pool with opened := c.pool.opened + 1 } }
        (c.owned held) := h.exclusive.withPool rfl
    have hall := hgranted.opens hopens
    have hidle : c'.pool.idle = c.pool.idle := hopens.idle_eq
    rw [owned, hidle, List.map_append, ← List.append_assoc]
    exact hall

theorem perm {held' : List Held} (h : Custody size c held) (hperm : held.Perm held') :
    Custody size c held' where
  pool_size := h.pool_size
  config_size := h.config_size
  accounted := h.accounted.perm (hperm.map _)
  exclusive := h.exclusive.perm ((hperm.map Held.connection).append_left c.pool.idle)

theorem giveBack (h : Custody size c held) {i : Nat} {k : Held} (hi : held[i]? = some k) :
    Custody size (c.giveBack k) (held.eraseIdx i) := by
  have hacc := (h.accounted.perm ((perm_cons_eraseIdx hi).map _)).giveBack
  have hall := h.exclusive.perm (((perm_cons_eraseIdx hi).map Held.connection).append_left c.pool.idle)
  have hsame := c.pool.idle_giveBack_sublist k
  refine ⟨hsame.1.trans h.pool_size, h.config_size, hacc, (hall.sublist ?_).withPool hsame.2.1⟩
  rw [List.map_cons, List.append_cons]
  exact hsame.2.2.append (List.Sublist.refl _)

theorem channel_ne_of_idle (h : Custody size c held) {k : Connection} (hk : k ∈ c.pool.idle)
    {x : Held} (hx : x ∈ held) : k.channel ≠ x.connection.channel := by
  have hnodup := h.exclusive.channel_nodup
  rw [owned, List.map_append, List.nodup_append] at hnodup
  apply hnodup.2.2
  · exact List.mem_map_of_mem hk
  · exact List.mem_map_of_mem (List.mem_map_of_mem hx)

theorem channel_ne_of_held (h : Custody size c held) {i : Nat} {x : Held} (hi : held[i]? = some x)
    {y : Held} (hy : y ∈ held.eraseIdx i) : y.connection.channel ≠ x.connection.channel := by
  have hnodup := h.exclusive.channel_nodup
  rw [owned, List.map_append, List.nodup_append] at hnodup
  have hheld : ((x :: held.eraseIdx i).map (·.connection.channel)).Nodup := by
    have hall := (((perm_cons_eraseIdx hi).map Held.connection).map Connection.channel).nodup hnodup.2.1
    rwa [List.map_map] at hall
  rw [List.map_cons, List.nodup_cons] at hheld
  intro heq
  exact hheld.1 (heq ▸ List.mem_map_of_mem hy)

theorem channel_ne_of_new {new : List Held} (h : Custody size c (held ++ new)) {x y : Held}
    (hx : x ∈ held) (hy : y ∈ new) : y.connection.channel ≠ x.connection.channel := by
  have hnodup := h.exclusive.channel_nodup
  rw [owned, List.map_append, List.nodup_append] at hnodup
  have hheld := hnodup.2.1
  rw [List.map_append, List.map_append, List.nodup_append] at hheld
  apply Ne.symm
  apply hheld.2.2
  · exact List.mem_map_of_mem (List.mem_map_of_mem hx)
  · exact List.mem_map_of_mem (List.mem_map_of_mem hy)

theorem channel_range_of_held (h : Custody size c held) {x : Held} (hx : x ∈ held) :
    0 < x.connection.channel ∧ x.connection.channel ≤ c.network.channels.length :=
  h.exclusive.channel_range _ (List.mem_append_right _ (List.mem_map_of_mem hx))

/-- What is said of a held connection does not matter if it stays the same connection of the same
generation. -/
theorem relabel (h : Custody size c held) {i : Nat} {k k' : Held} (hi : held[i]? = some k)
    (hconnection : k'.connection = k.connection) (hgeneration : k'.generation = k.generation) :
    Custody size c (held.set i k') := by
  refine ⟨h.pool_size, h.config_size, ?_, ?_⟩
  · rw [map_set_of_eq hi hgeneration]
    exact h.accounted
  · rw [owned, map_set_of_eq hi hconnection]
    exact h.exclusive

theorem reconnect (h : Custody size c held) {i : Nat} {k : Held} {new : Connection}
    (hi : held[i]? = some k) (hopens : c.Opens [new] c') :
    Custody size c' (held.set i { k with connection := new }) := by
  have hlose := h.lose hopens.drop
  obtain ⟨hlt, -⟩ := List.getElem?_eq_some_iff.mp hi
  have hset : (held.set i { k with connection := new }).Perm
      ({ k with connection := new } :: held.eraseIdx i) := List.set_perm_cons_eraseIdx hlt _
  refine ⟨hlose.pool_size, hlose.config_size, ?_, ?_⟩
  · exact hlose.accounted.perm
      (((perm_cons_eraseIdx hi).map Held.generation).trans (hset.map Held.generation).symm)
  · have hothers : (c.pool.idle ++ (held.eraseIdx i).map Held.connection).Sublist (c.owned held) :=
      (List.Sublist.refl _).append ((List.eraseIdx_sublist held i).map _)
    have hall := (h.exclusive.opens hopens).sublist (hothers.append (List.Sublist.refl [new]))
    refine hall.perm ?_
    rw [owned, hopens.idle_eq, List.append_assoc]
    exact (List.perm_append_comm.trans (hset.map Held.connection).symm).append_left _

end Custody
end Client

namespace Session

theorem Move.custody {size : Nat} {s s' : Session} (hmove : Move s s')
    (h : s.client.Custody size s.held) : s'.client.Custody size s'.held := by
  cases hmove with
  | lose hopens => exact h.lose hopens
  | retire next => exact h.retire next
  | teardown g => exact h.teardown g
  | dialPool hphase => exact h.dialPool hphase
  | install hopens hlen g => exact h.install hopens hlen g
  | dialFailed g => exact h.dialFailed g
  | take hidle => exact h.take hidle
  | replace hphase hroom hopens => exact h.replace hphase hroom hopens
  | giveBack hi => exact h.giveBack hi
  | discard hi => exact h.relabel hi rfl rfl
  | reconnect hi hopens => exact h.reconnect hi hopens

theorem Moves.custody {size : Nat} {s s' : Session} (hmoves : Moves s s')
    (h : s.client.Custody size s.held) : s'.client.Custody size s'.held := by
  induction hmoves with
  | refl => exact h
  | tail _ hmove ih => exact hmove.custody ih

end Session
end ReplicaClient
