import Mathlib.Data.List.Nodup
import ReplicaClient.DataType.Handle
import ReplicaClient.Proofs.DataType.Commit

/-!
# Handles that track the store

A handle is fetched, edited and stored, and some of the stores fail.  After each store that the
reference store has acknowledged, the local value shows what the store holds, at every path.
-/

namespace ReplicaClient
namespace DataType

open StoredEntry

/-! ## Fetched values -/

/-- The entries of a map have known kinds, names in UTF-8 and pairwise different fields, and so have
those of the maps among them. -/
inductive WellFormed : List StoredEntry → Prop where
  | intro {es : List StoredEntry} (keyed : ∀ e ∈ es, ∃ key : ItemKey, e.field = key.field)
      (distinct : (es.map field).Nodup)
      (nested : ∀ e ∈ es, e.field.2 = ItemKind.map.number → WellFormed e.entries) : WellFormed es

namespace Item

theorem ofEntry_eq {e : StoredEntry} {key : ItemKey} (h : e.field = key.field) :
    ∃ item, ofEntry e = some (key, item) ∧ item.kind = key.kind ∧
      (key.kind ≠ .map → item.snapshot = e.snapshot key.kind) ∧
      (key.kind = .map → item = map (Assoc.ofList (ofEntries e.entries)) []) := by
  obtain ⟨name, number, total, members, value, raised, es⟩ := e
  obtain ⟨hname, hnumber⟩ := Prod.mk.inj h
  obtain ⟨text, kind⟩ := key
  dsimp only at hname hnumber
  subst hname hnumber
  rw [ofEntry]
  simp only [ItemKind.ofNumber?_number, Utf8.decodeLossy_encode]
  refine ⟨_, rfl, ?_⟩
  cases kind with
  | map => exact ⟨rfl, fun hne ↦ absurd rfl hne, fun _ ↦ rfl⟩
  | _ => exact ⟨rfl, fun _ ↦ rfl, nofun⟩

theorem ofEntries_cons {e : StoredEntry} {es : List StoredEntry} {key : ItemKey} {item : Item}
    (h : ofEntry e = some (key, item)) : ofEntries (e :: es) = (key, item) :: ofEntries es := by
  rw [ofEntries, h]

theorem fields_ofEntries {es : List StoredEntry}
    (keyed : ∀ e ∈ es, ∃ key : ItemKey, e.field = key.field) :
    ((ofEntries es).map Prod.fst).map ItemKey.field = es.map field := by
  induction es with
  | nil => rw [ofEntries]; rfl
  | cons e es ih =>
      obtain ⟨key, hkey⟩ := keyed e List.mem_cons_self
      obtain ⟨item, hitem, -⟩ := ofEntry_eq hkey
      rw [ofEntries_cons hitem, List.map_cons, List.map_cons, List.map_cons, hkey,
        ih fun e' he' ↦ keyed e' (List.mem_cons_of_mem e he')]

/-- The entries that are fetched are those that the store holds. -/
theorem find?_ofEntries {es : List StoredEntry}
    (keyed : ∀ e ∈ es, ∃ key : ItemKey, e.field = key.field) (key : ItemKey) :
    Assoc.find? key (ofEntries es) = ((lookup key es).bind ofEntry).map Prod.snd := by
  induction es with
  | nil => rw [ofEntries]; rfl
  | cons e es ih =>
      obtain ⟨k, hk⟩ := keyed e List.mem_cons_self
      obtain ⟨item, hitem, -⟩ := ofEntry_eq hk
      rw [ofEntries_cons hitem, Assoc.find?_cons, lookup_cons, hk,
        ih fun e' he' ↦ keyed e' (List.mem_cons_of_mem e he')]
      by_cases hsame : k = key
      · rw [if_pos hsame, if_pos (congrArg ItemKey.field hsame), Option.bind_some, hitem]
        rfl
      · rw [if_neg hsame, if_neg fun heq ↦ hsame (ItemKey.field_injective heq)]

end Item

namespace WellFormed

variable {es : List StoredEntry} {key : ItemKey}

theorem find?_ofList (h : WellFormed es) (key : ItemKey) :
    Assoc.find? key (Assoc.ofList (Item.ofEntries es)) =
      ((lookup key es).bind Item.ofEntry).map Prod.snd := by
  obtain ⟨keyed, distinct, -⟩ := h
  have hnodup : ((Item.ofEntries es).map Prod.fst).Nodup := by
    apply List.Nodup.of_map ItemKey.field
    rw [Item.fields_ofEntries keyed]
    exact distinct
  rw [Assoc.find?_ofList hnodup, Item.find?_ofEntries keyed]

/-- What is found under a key comes from the entry that the store holds under it. -/
theorem of_find? (h : WellFormed es) {item : Item}
    (hfound : Assoc.find? key (Assoc.ofList (Item.ofEntries es)) = some item) :
    ∃ e, lookup key es = some e ∧ item.kind = key.kind ∧
      (key.kind ≠ .map → item.snapshot = e.snapshot key.kind) ∧
      (key.kind = .map → item = .map (Assoc.ofList (Item.ofEntries e.entries)) []) := by
  rw [h.find?_ofList] at hfound
  obtain ⟨p, hp, rfl⟩ := Option.map_eq_some_iff.mp hfound
  obtain ⟨e, hlookup, hitem⟩ := Option.bind_eq_some_iff.mp hp
  obtain ⟨item, heq, hfacts⟩ := Item.ofEntry_eq (of_lookup hlookup).2
  rw [heq] at hitem
  cases hitem
  exact ⟨e, hlookup, hfacts⟩

theorem lookup_eq_none (h : WellFormed es)
    (hnone : Assoc.find? key (Assoc.ofList (Item.ofEntries es)) = none) : lookup key es = none := by
  rw [h.find?_ofList, Option.map_eq_none_iff] at hnone
  cases hlookup : lookup key es with
  | none => rfl
  | some e =>
      obtain ⟨item, heq, -⟩ := Item.ofEntry_eq (of_lookup hlookup).2
      rw [hlookup, Option.bind_some, heq] at hnone
      cases hnone

theorem nested_of_lookup (h : WellFormed es) {e : StoredEntry} (hlookup : lookup key es = some e)
    (hkind : key.kind = .map) : WellFormed e.entries := by
  obtain ⟨-, -, nested⟩ := h
  obtain ⟨hmem, hfield⟩ := of_lookup hlookup
  exact nested e hmem (by rw [hfield, ItemKey.field, hkind])

/-- What has been fetched mirrors the store. -/
theorem mirrors {e : StoredEntry} (h : WellFormed e.entries) :
    Mirrors (.map (Assoc.ofList (Item.ofEntries e.entries)) []) e := by
  generalize hes : e.entries = es at h
  have hwell := h
  induction h generalizing e with
  | @intro es keyed distinct nested ih =>
      subst hes
      refine .map (Assoc.ordered_ofList _) ?_ ?_ (fun key hnone _ ↦ hwell.lookup_eq_none hnone) nofun
      · intro key item hfound
        obtain ⟨e', -, hkind, -⟩ := hwell.of_find? hfound
        exact hkind
      · intro key item hfound
        obtain ⟨e', hlookup, hkind, hleaf, hmap⟩ := hwell.of_find? hfound
        rw [hlookup, Option.getD_some]
        by_cases hnested : key.kind = .map
        · obtain ⟨hmem, hfield⟩ := of_lookup hlookup
          rw [hmap hnested]
          exact ih e' hmem (by rw [hfield, ItemKey.field, hnested]) rfl
            (hwell.nested_of_lookup hlookup hnested)
        · refine .leaf (hkind ▸ hnested) ?_
          rw [hkind]
          exact hleaf hnested

/-- What has been fetched is not about to lose anything. -/
theorem not_removing (h : WellFormed es) {q : List ItemKey} :
    ¬(Item.map (Assoc.ofList (Item.ofEntries es)) []).Removing q := by
  induction q generalizing es with
  | nil => exact id
  | cons key q ih =>
      rintro (⟨-, hmem⟩ | ⟨item, hfound, hremoving⟩)
      · cases hmem
      · obtain ⟨e, hlookup, hkind, -, hmap⟩ := h.of_find? hfound
        by_cases hnested : key.kind = .map
        · rw [hmap hnested] at hremoving
          exact ih (h.nested_of_lookup hlookup hnested) hremoving
        · exact Item.not_removing_of_kind (hkind ▸ hnested) hremoving

end WellFormed

def Kind.itemKind : Kind → ItemKind
  | counter => .counter
  | set => .set
  | map => .map

/-- A value of its own, as an entry that is in no map. -/
def Stored.toEntry (v : Stored) : StoredEntry :=
  .mk [] 0 v.counter v.members none none v.entries

theorem mirrors_ofStored {kind : Kind} {v : Stored} (h : kind = .map → WellFormed v.entries) :
    Mirrors (.ofStored kind v) v.toEntry := by
  cases kind with
  | counter => exact .leaf nofun rfl
  | set => exact .leaf nofun rfl
  | map => exact WellFormed.mirrors (e := v.toEntry) (h rfl)

theorem not_removing_ofStored {kind : Kind} {v : Stored}
    (h : kind = .map → WellFormed v.entries) {q : List ItemKey} :
    ¬(Item.ofStored kind v).Removing q := by
  cases kind with
  | map => exact (h rfl).not_removing
  | _ => exact Item.not_removing_of_kind nofun

theorem kind_ofStored (kind : Kind) (v : Stored) : (Item.ofStored kind v).kind = kind.itemKind := by
  cases kind <;> rfl

/-! ## Runs -/

/-- A handle, what the store holds under its key, and the entries that have been removed since they
were fetched or last stored. -/
structure Tandem where
  handle : Handle
  stored : StoredEntry
  removed : List (List ItemKey) := []

namespace Tandem

inductive Event where
  | edit (path : List ItemKey) (change : Edit)
  | store (reply : Except ClientError DataTypeUpdateReply)

/-- The store answers an update as it is told, and applies the operation if it acknowledges it. -/
def answer (reply : Except ClientError DataTypeUpdateReply) :
    (q : Request) → StoredEntry → Except ClientError q.Reply × StoredEntry
  | .dataTypeUpdate q, e =>
      match reply with
      | .ok reply => (.ok reply, q.op.apply e)
      | .error err => (.error err, e)
  | _, e => (.error .connectionClosed, e)

/-- The entries that count as removed after an edit. -/
def removedBy (path : List ItemKey) :
    Edit → Except EditError Unit → List (List ItemKey) → List (List ItemKey)
  | .remove key, .ok (), removed => (path ++ [key]) :: removed
  | _, _, removed => removed

def step (s : Tandem) : Event → Tandem
  | .edit path change =>
      let (result, handle) := s.handle.edit path change
      { s with handle, removed := removedBy path change result s.removed }
  | .store reply =>
      let ((_, handle), stored) := s.handle.store.run (answer reply) s.stored
      { handle, stored, removed := match reply with
          | .ok _ => []
          | .error _ => s.removed }

def run (s : Tandem) (events : List Event) : Tandem :=
  events.foldl step s

/-- Nothing is added again that has been removed, and no counter passes the end of its range. -/
def Allows (s : Tandem) : Event → Prop
  | .edit path _ => ∀ q, q ≠ [] → q <+: path → q ∉ s.removed
  | .store (.ok _) => s.handle.value.InRange
  | .store (.error _) => True

def AllowsAll (s : Tandem) : List Event → Prop
  | [] => True
  | event :: events => s.Allows event ∧ (s.step event).AllowsAll events

/-- The handle mirrors the store, and what it is about to remove counts as removed. -/
structure InTandem (kind : Kind) (s : Tandem) : Prop where
  mirrors : Mirrors s.handle.value s.stored
  removing : ∀ q, s.handle.value.Removing q → q ∈ s.removed
  kind_eq : s.handle.value.kind = kind.itemKind

variable {kind : Kind} {s : Tandem}

theorem value_afterStore (h : Handle) (reply : DataTypeUpdateReply) :
    (h.afterStore reply).value = h.value.commit := by
  unfold Handle.afterStore
  dsimp only
  split <;> rfl

namespace InTandem

theorem edit (h : InTandem kind s) (path : List ItemKey) (change : Edit)
    (hallowed : s.Allows (.edit path change)) : InTandem kind (s.step (.edit path change)) where
  mirrors := h.mirrors.edit fun q hq hprefix hremoving ↦
    hallowed q hq hprefix (h.removing q hremoving)
  removing q hq := by
    show q ∈ removedBy path change (s.handle.value.edit path change).1 s.removed
    rcases Item.removing_edit hq with hq | ⟨hok, key, rfl, rfl⟩
    · have hold := h.removing q hq
      unfold removedBy
      split
      · exact List.mem_cons_of_mem _ hold
      · exact hold
    · rw [hok]
      exact List.mem_cons_self
  kind_eq := (Item.kind_edit path change s.handle.value).trans h.kind_eq

/-- After an acknowledged store nothing is about to be removed. -/
theorem store (h : InTandem kind s) (reply : DataTypeUpdateReply)
    (hallowed : s.Allows (.store (.ok reply))) :
    InTandem kind (s.step (.store (.ok reply))) ∧
      ∀ q, ¬(s.step (.store (.ok reply))).handle.value.Removing q := by
  have hvalue : (s.step (.store (.ok reply))).handle.value = s.handle.value.commit :=
    value_afterStore s.handle reply
  have hclean : ∀ q, ¬(s.step (.store (.ok reply))).handle.value.Removing q := by
    rw [hvalue]
    exact fun q ↦ Item.not_removing_commit s.handle.value
  refine ⟨⟨?_, fun q hq ↦ absurd hq (hclean q), ?_⟩, hclean⟩
  · rw [hvalue]
    exact h.mirrors.commit hallowed
  · rw [hvalue]
    exact (Item.kind_commit _).trans h.kind_eq

theorem step (h : InTandem kind s) {event : Event} (hallowed : s.Allows event) :
    InTandem kind (s.step event) := by
  cases event with
  | edit path change => exact h.edit path change hallowed
  | store reply =>
      cases reply with
      | ok reply => exact (h.store reply hallowed).1
      | error err => exact ⟨h.mirrors, h.removing, h.kind_eq⟩

theorem run (h : InTandem kind s) {events : List Event} (hallowed : s.AllowsAll events) :
    InTandem kind (s.run events) := by
  induction events generalizing s with
  | nil => exact h
  | cons event events ih => exact ih (h.step hallowed.1) hallowed.2

end InTandem

theorem allowsAll_append {events later : List Event} :
    s.AllowsAll (events ++ later) ↔ s.AllowsAll events ∧ (s.run events).AllowsAll later := by
  induction events generalizing s with
  | nil => exact (true_and _).to_iff.symm
  | cons event events ih =>
      rw [List.cons_append, AllowsAll, AllowsAll, ih, and_assoc]
      rfl

theorem run_append (s : Tandem) (events later : List Event) :
    s.run (events ++ later) = (s.run events).run later :=
  List.foldl_append

theorem inTandem_fetch {b : Bucket} {key : String} {options : Options} {reply : DataTypeFetchReply}
    {h : Handle} (hfetch : afterFetch kind b key options reply = .ok h)
    (hwell : kind = .map → WellFormed (reply.value.getD {}).entries) :
    InTandem kind ⟨h, (reply.value.getD {}).toEntry, []⟩ := by
  have hvalue : h.value = .ofStored kind (reply.value.getD {}) := by
    unfold afterFetch at hfetch
    split at hfetch
    · cases hfetch
      cases reply.value with
      | none => cases kind <;> rfl
      | some v => rfl
    · cases hfetch
  have hmirrors := mirrors_ofStored hwell
  have hkind := kind_ofStored kind (reply.value.getD {})
  rw [← hvalue] at hmirrors hkind
  refine ⟨hmirrors, fun q hq ↦ ?_, hkind⟩
  rw [hvalue] at hq
  exact absurd hq (not_removing_ofStored hwell)

/-- After every store that is acknowledged, the handle shows at every path what the store holds there,
where what is missing reads as empty, and has whatever the store has. -/
theorem tracks_run (kind : Kind) (b : Bucket) (key : String) (options : Options)
    (reply : DataTypeFetchReply) (h : Handle) (hfetch : afterFetch kind b key options reply = .ok h)
    (hwell : kind = .map → WellFormed (reply.value.getD {}).entries)
    (past : List Event) (last : DataTypeUpdateReply)
    (hallowed : AllowsAll ⟨h, (reply.value.getD {}).toEntry, []⟩ (past ++ [.store (.ok last)]))
    (path : List ItemKey) :
    let s := run ⟨h, (reply.value.getD {}).toEntry, []⟩ (past ++ [.store (.ok last)])
    s.handle.value.readAt path = s.stored.readAt kind.itemKind path ∧
      ((s.stored.fetch? kind.itemKind path).isSome → (s.handle.value.fetch? path).isSome) := by
  intro s
  obtain ⟨hpast, hlast, -⟩ := allowsAll_append.mp hallowed
  have hbefore := (inTandem_fetch hfetch hwell).run hpast
  obtain ⟨hafter, hclean⟩ := hbefore.store last hlast
  have hrun : s = (run ⟨h, (reply.value.getD {}).toEntry, []⟩ past).step (.store (.ok last)) :=
    run_append _ past [.store (.ok last)]
  rw [hrun, ← hafter.kind_eq]
  exact hafter.mirrors.readAt_eq hclean path

/-- A map with a counter and with a map that holds a flag. -/
def profile : Stored :=
  { entries := [
      .mk (Utf8.encode "a") 1 (some 5) [] none none [],
      .mk (Utf8.encode "m") 5 none [] none none
        [.mk (Utf8.encode "f") 4 none [] none (some true) []]] }

theorem wellFormed_profile : WellFormed profile.entries := by
  have hflag : WellFormed [.mk (Utf8.encode "f") 4 none [] none (some true) []] := by
    refine .intro ?_ (List.nodup_singleton _) ?_
    · intro e he
      obtain rfl := List.mem_singleton.mp he
      exact ⟨⟨"f", .flag⟩, rfl⟩
    · intro e he hmap
      obtain rfl := List.mem_singleton.mp he
      exact absurd hmap (by decide)
  refine .intro ?_ (by decide) ?_
  · intro e he
    rcases List.mem_pair.mp he with rfl | rfl
    · exact ⟨⟨"a", .counter⟩, rfl⟩
    · exact ⟨⟨"m", .map⟩, rfl⟩
  · intro e he hmap
    rcases List.mem_pair.mp he with rfl | rfl
    · exact absurd hmap (by decide)
    · exact hflag

def profileHandle : Handle :=
  { bucket := default, key := "k", value := .ofStored .map profile }

def visit : List Event :=
  [.edit [⟨"m", .map⟩, ⟨"s", .set⟩] (.insert [1]), .edit [] (.remove ⟨"a", .counter⟩),
    .store (.error .connectionClosed), .edit [⟨"m", .map⟩] (.remove ⟨"f", .flag⟩),
    .edit [⟨"c", .counter⟩] (.increment 3)]

theorem allowsAll_visit :
    AllowsAll ⟨profileHandle, profile.toEntry, []⟩ (visit ++ [.store (.ok {})]) := by
  refine ⟨?_, ?_, trivial, ?_, ?_, ?_, trivial⟩
  · rintro q - - ⟨⟩
  · rintro q - - ⟨⟩
  · intro q _ hprefix hremoved
    obtain rfl : q = [⟨"a", .counter⟩] := List.mem_singleton.mp hremoved
    exact absurd hprefix (by decide)
  · intro q _ hprefix hremoved
    obtain rfl | rfl : q = [⟨"m", .map⟩, ⟨"f", .flag⟩] ∨ q = [⟨"a", .counter⟩] :=
      List.mem_pair.mp hremoved
    · exact absurd hprefix (by decide)
    · exact absurd hprefix (by decide)
  · show Item.InRange (.map [(⟨"c", .counter⟩, .counter ⟨0, 3⟩),
      (⟨"m", .map⟩, .map [(⟨"s", .set⟩, .set ⟨[], [[1]], []⟩)] [⟨"f", .flag⟩])] [⟨"a", .counter⟩])
    simp only [Item.InRange, Item.EntriesInRange, Counter.Fits]
    decide

theorem tracks_run_visit :
    let s := run ⟨profileHandle, profile.toEntry, []⟩ (visit ++ [.store (.ok {})])
    s.stored.readAt .map [⟨"m", .map⟩, ⟨"s", .set⟩] = .members ([[1]] : List Bytes) ∧
      s.stored.readAt .map [⟨"a", .counter⟩] = .total 0 ∧
      s.stored.readAt .map [⟨"c", .counter⟩] = .total 3 := by
  have htracks := tracks_run .map default "k" {} { kind := 3, value := some profile } profileHandle
    rfl (fun _ ↦ wellFormed_profile) visit {} allowsAll_visit
  exact ⟨(htracks [⟨"m", .map⟩, ⟨"s", .set⟩]).1.symm, (htracks [⟨"a", .counter⟩]).1.symm,
    (htracks [⟨"c", .counter⟩]).1.symm⟩

end Tandem
end DataType
end ReplicaClient
