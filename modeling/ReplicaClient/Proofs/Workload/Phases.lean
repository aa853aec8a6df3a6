import Mathlib.Data.List.Forall2
import ReplicaClient.Proofs.Object.Provenance
import ReplicaClient.Workload

/-!
# What a workload asks of a store

Each worker of a phase asks its requests whatever it hears, as long as it is served, so a phase asks
the same requests in whichever order its workers take turns.  They are as many as can be shared out
evenly, and their keys are among those that were seeded.
-/

namespace ReplicaClient

/-! ## Dialogues that know what they ask -/

/-- A reply with which one can go on: a read has found something. -/
def Request.Served : (q : Request) → q.Reply → Prop
  | .get _, reply => GetReply.contents reply ≠ []
  | _, _ => True

namespace Request

def plenty : (q : Request) → q.Reply
  | .get _ => ({ contents := [default] } : GetReply)
  | q => q.reply []

theorem served_plenty (q : Request) : q.Served q.plenty := by
  cases q with
  | get g => exact List.cons_ne_nil _ _
  | _ => exact trivial

end Request

namespace Dialogue

variable {α β : Type} {qs qs' : List Request} {a : α} {b : β}

/-- However it is served, a dialogue asks these requests one after the other and ends with this
result. -/
inductive Recites : Dialogue α → List Request → α → Prop where
  | done (a : α) : Recites (.done a) [] a
  | ask {q : Request} {next : Except ClientError q.Reply → Dialogue α} {qs : List Request} {a : α}
      (h : ∀ reply, q.Served reply → Recites (next (.ok reply)) qs a) :
      Recites (.ask q next) (q :: qs) a

theorem Recites.bind {d : Dialogue α} (h : Recites d qs a) {f : α → Dialogue β}
    (hf : Recites (f a) qs' b) : Recites (d.bind f) (qs ++ qs') b := by
  induction h with
  | done a => exact hf
  | ask _ ih => exact .ask fun reply hserved ↦ ih reply hserved hf

theorem Recites.bind_done {d : Dialogue α} (h : Recites d qs a) (f : α → β) :
    Recites (d.bind fun a ↦ .done (f a)) qs (f a) := by
  have hend := h.bind (f := fun a ↦ .done (f a)) (.done (f a))
  rwa [List.append_nil] at hend

/-! ### Dialogues by turns -/

/-- Dialogues are held side by side.  Each time any one of them has its request served, until all
have come to their end. -/
inductive Interleaved : List (Dialogue α) → List Request → List α → Prop where
  | done (results : List α) : Interleaved (results.map .done) [] results
  | turn {before after : List (Dialogue α)} {q : Request}
      {next : Except ClientError q.Reply → Dialogue α} {log : List Request} {results : List α}
      (reply : q.Reply) (hserved : q.Served reply)
      (rest : Interleaved (before ++ next (.ok reply) :: after) log results) :
      Interleaved (before ++ .ask q next :: after) (q :: log) results

theorem forall₂_middle {γ δ : Type} {R : γ → δ → Prop} {before after : List γ} {c : γ}
    {parts : List δ} (h : List.Forall₂ R (before ++ c :: after) parts) :
    ∃ before' part after', parts = before' ++ part :: after' ∧
      List.Forall₂ R before before' ∧ R c part ∧ List.Forall₂ R after after' := by
  induction before generalizing parts with
  | nil =>
      cases h with
      | cons hc hafter => exact ⟨[], _, _, rfl, .nil, hc, hafter⟩
  | cons d before ih =>
      cases h with
      | cons hd hrest =>
          obtain ⟨before', part, after', rfl, hbefore, hc, hafter⟩ := ih hrest
          exact ⟨_ :: before', part, after', rfl, .cons hd hbefore, hc, hafter⟩

/-- Dialogues of which each knows what it asks ask all of that and nothing else, whoever has a turn
when. -/
theorem Interleaved.perm {dialogues : List (Dialogue α)} {log : List Request} {results : List α}
    (h : Interleaved dialogues log results) {parts : List (List Request)}
    (hparts : List.Forall₂ (fun d qs ↦ Recites d qs a) dialogues parts) :
    log.Perm parts.flatten ∧ ∀ r ∈ results, r = a := by
  induction h generalizing parts with
  | done results =>
      induction results generalizing parts with
      | nil =>
          cases hparts
          exact ⟨.nil, nofun⟩
      | cons result results ih =>
          cases hparts with
          | cons hpart hrest =>
              obtain ⟨hlog, hresults⟩ := ih hrest
              cases hpart
              exact ⟨hlog, List.forall_mem_cons.mpr ⟨rfl, hresults⟩⟩
  | turn reply hserved rest ih =>
      obtain ⟨before', _, after', rfl, hbefore, hasked, hafter⟩ := forall₂_middle hparts
      cases hasked with
      | @ask q _ qs _ hnext =>
          obtain ⟨hlog, hresults⟩ :=
            ih (List.rel_append hbefore (.cons (hnext reply hserved) hafter))
          refine ⟨?_, hresults⟩
          rw [List.flatten_append, List.flatten_cons] at hlog ⊢
          exact (hlog.cons _).trans List.perm_middle.symm

theorem Interleaved.cons_done {dialogues : List (Dialogue α)} {log : List Request}
    {results : List α} (h : Interleaved dialogues log results) (a : α) :
    Interleaved (.done a :: dialogues) log (a :: results) := by
  induction h with
  | done results => exact .done (a :: results)
  | @turn before _ _ _ _ _ reply hserved _ ih =>
      exact @turn _ (.done a :: before) _ _ _ _ _ reply hserved ih

/-- One after the other is an order too. -/
theorem Recites.interleaved {d : Dialogue α} (h : Recites d qs a) {dialogues : List (Dialogue α)}
    {log : List Request} {results : List α} (hrest : Interleaved dialogues log results) :
    Interleaved (d :: dialogues) (qs ++ log) (a :: results) := by
  induction h with
  | done a => exact hrest.cons_done a
  | @ask q _ _ _ _ ih =>
      have hserved := q.served_plenty
      exact @Interleaved.turn _ [] _ _ _ _ _ q.plenty hserved (ih q.plenty hserved)

theorem exists_interleaved {dialogues : List (Dialogue α)} {parts : List (List Request)}
    (h : List.Forall₂ (fun d qs ↦ Recites d qs a) dialogues parts) :
    ∃ results, Interleaved dialogues parts.flatten results := by
  induction h with
  | nil => exact ⟨[], .done []⟩
  | cons hfirst _ ih =>
      obtain ⟨results, hresults⟩ := ih
      exact ⟨_, hfirst.interleaved hresults⟩

end Dialogue

/-! ### Dialogues with a store that serves -/

/-- A store that answers every request, and has something for whoever reads what has been
written. -/
structure Provider where
  reply : List Request → (q : Request) → q.Reply
  holds : ∀ past (g : GetRequest) (p : PutRequest), .put p ∈ past →
    (Request.put p).place? = (Request.get g).place? →
      GetReply.contents (reply past (.get g)) ≠ []

namespace Provider

instance : Inhabited Provider where
  default := ⟨fun _ q ↦ q.plenty, fun _ g _ _ _ ↦ (Request.get g).served_plenty⟩

def answer (store : Provider) (q : Request) (past : List Request) :
    Except ClientError q.Reply × List Request :=
  (.ok (store.reply past q), past ++ [q])

end Provider

/-- Every read among the requests is of a place that has been written before. -/
def Covered : List Request → List Request → Prop
  | _, [] => True
  | past, q :: qs =>
      (∀ g, q = .get g → ∃ p, .put p ∈ past ∧ (Request.put p).place? = (Request.get g).place?) ∧
        Covered (past ++ [q]) qs

theorem covered_append {past qs qs' : List Request} :
    Covered past (qs ++ qs') ↔ Covered past qs ∧ Covered (past ++ qs) qs' := by
  induction qs generalizing past with
  | nil => simp [Covered]
  | cons q qs ih =>
      have hpast : past ++ [q] ++ qs = past ++ q :: qs := List.append_assoc _ _ _
      rw [List.cons_append, Covered, Covered, ih, hpast, and_assoc]

theorem covered_of_forall {past qs : List Request}
    (h : ∀ g, .get g ∈ qs → ∃ p, .put p ∈ past ∧
      (Request.put p).place? = (Request.get g).place?) : Covered past qs := by
  induction qs generalizing past with
  | nil => exact trivial
  | cons q qs ih =>
      refine ⟨fun g hg ↦ h g (hg ▸ List.mem_cons_self), ih fun g hg ↦ ?_⟩
      obtain ⟨p, hp, hplace⟩ := h g (List.mem_cons_of_mem q hg)
      exact ⟨p, List.mem_append_left _ hp, hplace⟩

/-- A store that serves is asked just that, and the dialogue comes to its end. -/
theorem Dialogue.Recites.run {α : Type} {d : Dialogue α} {qs : List Request} {a : α}
    (h : Recites d qs a) (store : Provider) {past : List Request} (hcovered : Covered past qs) :
    d.run store.answer past = (a, past ++ qs) := by
  induction h generalizing past with
  | done a => rw [List.append_nil, Dialogue.run]
  | @ask q next qs a _ ih =>
      obtain ⟨hread, hrest⟩ := hcovered
      have hserved : q.Served (store.reply past q) := by
        cases q with
        | get g =>
            obtain ⟨p, hp, hplace⟩ := hread g rfl
            exact store.holds past g p hp hplace
        | _ => exact trivial
      have hlog : past ++ q :: qs = past ++ [q] ++ qs := List.append_cons past q qs
      rw [hlog]
      exact ih _ hserved hrest

namespace Workload

open Dialogue (Recites Interleaved)

variable (w : Workload)

/-! ## Operations and their requests -/

theorem recites_step_query {α : Type} {q : Request} {f : q.Reply → Except ClientError α}
    (h : ∀ reply, q.Served reply → ∃ a, f reply = .ok a) (name : String) :
    Recites (step name (.query q f)) [q] (.ok ()) := by
  refine .ask fun reply hserved ↦ ?_
  obtain ⟨a, ha⟩ := h reply hserved
  dsimp only [Dialogue.bind]
  rw [ha]
  exact .done _

/-- The write of a key. -/
def storeRequest (index : Nat) (contentType : String) (data : Bytes) : Request :=
  .put { Store.newObjectIn bucketName (keyName index) with contentType, data }.putRequest

def seedRequest (index : Nat) : Request :=
  storeRequest index "application/octet-stream" (value w.valueSize 0xA5A5A5A5A5A5A5A5)

def request (p : Phase) (index : Nat) : Request :=
  match p with
  | .ping => .ping
  | .get => (Store.newObjectIn bucketName (keyName index)).fetchRequest
  | .put => storeRequest index "" (value w.valueSize (UInt64.ofNat index))

theorem recites_storeNew (name : String) (index : Nat) (contentType : String) (data : Bytes) :
    Recites (step name (storeNew index contentType data)) [storeRequest index contentType data]
      (.ok ()) :=
  .ask fun _ _ ↦ .done _

theorem recites_operation (p : Phase) (index : Nat) :
    Recites (w.operation p index) [w.request p index] (.ok ()) := by
  cases p with
  | ping => exact recites_step_query (fun _ _ ↦ ⟨(), rfl⟩) "ping"
  | get =>
      have hfound : ∀ reply : GetReply, reply.contents ≠ [] →
          ∃ o, (Store.newObjectIn bucketName (keyName index)).afterFetch reply = .ok o := by
        intro reply hne
        unfold Object.afterFetch
        split
        · contradiction
        · exact ⟨_, rfl⟩
      exact recites_step_query (q := (Store.newObjectIn bucketName (keyName index)).fetchRequest)
        hfound _
  | put => exact recites_storeNew _ index "" _

theorem recites_forEach {f : Nat → Dialogue (Except Failure Unit)} {request : Nat → Request}
    (h : ∀ index, Recites (f index) [request index] (.ok ())) (indices : List Nat) :
    Recites (forEach f indices) (indices.map request) (.ok ()) := by
  induction indices with
  | nil => exact .done _
  | cons index indices ih => exact (h index).bind ih

theorem recites_together {workers : List (Dialogue (Except Failure Unit))}
    {parts : List (List Request)}
    (h : List.Forall₂ (fun d qs ↦ Recites d qs (.ok ())) workers parts) :
    Recites (together workers) parts.flatten (.ok ()) := by
  induction h with
  | nil => exact .done _
  | @cons _ qs _ parts hworker _ ih =>
      exact hworker.bind (ih.bind_done _)

/-! ## Phases -/

/-- What the workers of a phase do. -/
def workers (p : Phase) : List (Dialogue (Except Failure Unit)) :=
  (List.range w.poolSize).map fun worker ↦ forEach (w.operation p) (w.workerKeys p worker)

/-- The operations of a phase, worker by worker. -/
def requests (p : Phase) : List Request :=
  (List.range w.poolSize).flatMap fun worker ↦ (w.workerKeys p worker).map (w.request p)

/-- The writes before the phases. -/
def seeds : List Request :=
  (List.range w.keys).map w.seedRequest

theorem recites_workers (p : Phase) :
    List.Forall₂ (fun d qs ↦ Recites d qs (.ok ())) (w.workers p)
      ((List.range w.poolSize).map fun worker ↦ (w.workerKeys p worker).map (w.request p)) := by
  refine List.forall₂_map_left_iff.mpr (List.forall₂_map_right_iff.mpr (List.forall₂_same.mpr ?_))
  intro worker _
  exact recites_forEach (w.recites_operation p) _

theorem recites_runPhase (p : Phase) : Recites (w.runPhase p) (w.requests p) (.ok ()) :=
  recites_together (w.recites_workers p)

theorem recites_seedKeys : Recites w.seedKeys w.seeds (.ok ()) :=
  recites_forEach (fun index ↦ recites_storeNew _ index _ _) _

theorem recites_runPhases (ps : List Phase) :
    Recites (w.runPhases ps) (ps.flatMap w.requests) { lines := ps.map w.phaseLine } := by
  induction ps with
  | nil => exact .done _
  | cons p ps ih =>
      rw [List.flatMap_cons]
      exact (w.recites_runPhase p).bind
        (ih.bind_done fun outcome ↦ { outcome with lines := w.phaseLine p :: outcome.lines })

theorem recites_traffic : Recites w.traffic
    (.getServerInfo :: (w.seeds ++ [Phase.ping, .get, .put].flatMap w.requests))
    { lines := w.heading :: [Phase.ping, .get, .put].map w.phaseLine } := by
  have hinfo : Recites (step "reading server info" Store.serverInfo) [.getServerInfo] (.ok ()) :=
    recites_step_query (fun _ _ ↦ ⟨_, rfl⟩) _
  have hphases := (w.recites_runPhases [.ping, .get, .put]).bind_done fun outcome ↦
    { outcome with lines := w.heading :: outcome.lines }
  exact hinfo.bind (w.recites_seedKeys.bind hphases)

/-! ## Shares -/

theorem length_picks (keys count : Nat) (x : UInt64) : (picks keys count x).length = count := by
  induction count generalizing x with
  | zero => rfl
  | succ count ih => exact congrArg Nat.succ (ih _)

theorem lt_of_mem_picks {keys : Nat} (hkeys : 0 < keys) {count : Nat} {x : UInt64} {index : Nat}
    (h : index ∈ picks keys count x) : index < keys := by
  induction count generalizing x with
  | zero => cases h
  | succ count ih =>
      rcases List.mem_cons.mp h with rfl | h
      · exact Nat.mod_lt _ hkeys
      · exact ih h

theorem length_requests (p : Phase) : (w.requests p).length = w.poolSize * w.share := by
  simp [requests, List.length_flatMap, workerKeys, length_picks]

/-- Nothing is left over only where all can be shared out evenly. -/
theorem length_requests_eq_iff (p : Phase) :
    (w.requests p).length = w.operations ↔ w.poolSize ∣ w.operations := by
  rw [length_requests, share]
  exact ⟨fun h ↦ ⟨_, h.symm⟩, Nat.mul_div_cancel'⟩

/-- Reads and writes are about keys that have been seeded. -/
theorem place_of_mem_requests (hkeys : 0 < w.keys) {p : Phase} (hp : p ≠ .ping) {q : Request}
    (h : q ∈ w.requests p) : ∃ index < w.keys, q.place? = (w.seedRequest index).place? := by
  obtain ⟨worker, -, hworker⟩ := List.mem_flatMap.mp h
  obtain ⟨index, hindex, rfl⟩ := List.mem_map.mp hworker
  refine ⟨index, lt_of_mem_picks hkeys hindex, ?_⟩
  rw [seedRequest, storeRequest, Object.place?_putRequest]
  cases p with
  | ping => exact absurd rfl hp
  | get => rfl
  | put => exact Object.place?_putRequest _

/-- The keys are seeded before any is read. -/
theorem covered_traffic (hkeys : 0 < w.keys) :
    Covered [] (.getServerInfo :: (w.seeds ++ [Phase.ping, .get, .put].flatMap w.requests)) := by
  have hseeds : Covered [.getServerInfo] w.seeds := by
    apply covered_of_forall
    intro g hg
    obtain ⟨index, -, heq⟩ := List.mem_map.mp hg
    cases heq
  refine ⟨nofun, covered_append.mpr ⟨hseeds, covered_of_forall fun g hg ↦ ?_⟩⟩
  obtain ⟨p, -, hg⟩ := List.mem_flatMap.mp hg
  by_cases hp : p = .ping
  · subst hp
    obtain ⟨worker, -, hworker⟩ := List.mem_flatMap.mp hg
    obtain ⟨index, -, heq⟩ := List.mem_map.mp hworker
    cases heq
  · obtain ⟨index, hindex, hplace⟩ := w.place_of_mem_requests hkeys hp hg
    refine ⟨_, List.mem_append_right _ ?_, hplace.symm⟩
    exact List.mem_map_of_mem (List.mem_range.mpr hindex)

theorem keys_pos (args : List String) : 0 < (ofArgs args).keys :=
  Nat.le_max_left 1 _

/-- For every list of arguments: in whichever order its workers have their turns, and there is one,
a phase asks each of their requests once; a store that serves is asked for all keys to be written
and then for the operations of the three phases, and the run ends well.  The operations of a phase
are all that was asked for only if they can be shared out evenly.  Those that are not pings are
about keys that have been written before. -/
theorem phases_ask (args : List String) :
    (∀ p, (∃ log results, Interleaved ((ofArgs args).workers p) log results) ∧
      ∀ log results, Interleaved ((ofArgs args).workers p) log results →
        log.Perm ((ofArgs args).requests p) ∧ ∀ r ∈ results, r = .ok ()) ∧
    (∀ store : Provider, (ofArgs args).traffic.run store.answer [] =
      ({ lines := (ofArgs args).heading ::
            [Phase.ping, .get, .put].map (ofArgs args).phaseLine },
        .getServerInfo :: ((ofArgs args).seeds ++
          [Phase.ping, .get, .put].flatMap (ofArgs args).requests))) ∧
    ∀ p, ((ofArgs args).requests p).length =
        (ofArgs args).poolSize * ((ofArgs args).operations / (ofArgs args).poolSize) ∧
      (((ofArgs args).requests p).length = (ofArgs args).operations ↔
        (ofArgs args).poolSize ∣ (ofArgs args).operations) ∧
      (p ≠ .ping → ∀ q ∈ (ofArgs args).requests p,
        ∃ index < (ofArgs args).keys, q.place? = ((ofArgs args).seedRequest index).place?) := by
  have hkeys : 0 < (ofArgs args).keys := keys_pos args
  generalize ofArgs args = w at hkeys ⊢
  refine ⟨fun p ↦ ⟨⟨_, Dialogue.exists_interleaved (w.recites_workers p)⟩, fun log results h ↦ ?_⟩,
    fun store ↦ ?_, fun p ↦ ⟨w.length_requests p, w.length_requests_eq_iff p,
      fun hp q hq ↦ w.place_of_mem_requests hkeys hp hq⟩⟩
  · rw [requests, List.flatMap_def]
    exact h.perm (w.recites_workers p)
  · exact w.recites_traffic.run store (w.covered_traffic hkeys)

end Workload

end ReplicaClient
