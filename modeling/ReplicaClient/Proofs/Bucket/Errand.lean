import ReplicaClient.Proofs.Bucket.Naming
import ReplicaClient.Search

/-!
# Requests without the name of a bucket

A caller gets handles from the client and makes calls with them, in any order.  A request goes out
without the name of a bucket only for a new file, and for a store, a reload, a deletion, a save or a
write with an object or a file of an empty name.  Such objects and files come from the calls that
make something new, and from no other.
-/

namespace ReplicaClient
namespace Errand

open Dialogue (Keeps)

/-! ## Handles -/

/-- What a caller can hold; a model is held as its object. -/
inductive Handle where
  | bucket (b : Bucket)
  | object (o : Object)
  | counter (n : Counter)
  | dataType (d : DataType.Handle)
  | file (f : ChunkedFile)

namespace Handle

/-- The name of the bucket. -/
def name : Handle → String
  | bucket b => b.name
  | object o => o.bucket
  | counter n => n.bucket.name
  | dataType d => d.bucket.name
  | file f => f.root.bucket

/-- A bucket has a name, and so has what is made of it.  A file has its chunk where its root is. -/
def Sound : Handle → Prop
  | object _ => True
  | file f => f.Whole
  | h => h.name ≠ ""

/-- A caller may change anything but the bucket. -/
def Edits : Handle → Handle → Prop
  | object o, object o' => o'.bucket = o.bucket
  | counter n, counter n' => n'.bucket = n.bucket
  | dataType d, dataType d' => d'.bucket = d.bucket
  | _, _ => False

def IsOf (name : String) (h : Handle) : Prop :=
  h.name = name ∧ h.Sound

section IsOf

variable {name : String} {b : Bucket}

theorem isOf_bucket (hb : b.name = name) (hname : name ≠ "") :
    (bucket b).IsOf name :=
  ⟨hb, hb.trans_ne hname⟩

theorem isOf_object {o : Object} (h : o.bucket = name) : (object o).IsOf name :=
  ⟨h, trivial⟩

theorem isOf_counter {n : Counter} (h : n.bucket = b) (hb : b.name ≠ "") :
    (counter n).IsOf b.name := by
  subst h
  exact ⟨rfl, hb⟩

theorem isOf_dataType {d : DataType.Handle} (h : d.bucket = b) (hb : b.name ≠ "") :
    (dataType d).IsOf b.name := by
  subst h
  exact ⟨rfl, hb⟩

theorem isOf_of_edits {h h' : Handle} (hsound : h.Sound) (hedits : h.Edits h') :
    h'.IsOf h.name := by
  cases h with
  | object o =>
      cases h' with
      | object o' => exact isOf_object hedits
      | _ => exact hedits.elim
  | counter n =>
      cases h' with
      | counter n' => exact isOf_counter hedits hsound
      | _ => exact hedits.elim
  | dataType d =>
      cases h' with
      | dataType d' => exact isOf_dataType hedits hsound
      | _ => exact hedits.elim
  | _ => exact hedits.elim

end IsOf

end Handle

/-! ## What a call leaves -/

/-- The error that the caller is told, and the handles that the call gives. -/
abbrev Outcome := Option ClientError × List Handle

def errorOf {α : Type} : Except ClientError α → Option ClientError
  | .ok _ => none
  | .error e => some e

/-- The handles in a result.  That there is no object is told with a handle of the tombstone. -/
def handlesOf {α : Type} (handles : α → List Handle) : Except ClientError α → List Handle
  | .ok a => handles a
  | .error (.notFound o) => [.object o]
  | .error _ => []

/-- A call that gives handles. -/
def gaining {α : Type} (d : Dialogue (Except ClientError α)) (handles : α → List Handle) :
    Dialogue Outcome :=
  d.bind fun result ↦ .done (errorOf result, handlesOf handles result)

/-- A call on a handle. -/
def acting {α σ : Type} (d : Dialogue (Except ClientError α × σ)) (handle : σ → Handle) :
    Dialogue Outcome :=
  d.bind fun p ↦ .done (errorOf p.1, handle p.2 :: handlesOf (fun _ ↦ []) p.1)

/-- All handles are of one bucket. -/
def Leaves (name : String) (outcome : Outcome) : Prop :=
  ∀ h ∈ outcome.2, h.IsOf name

section Leaves

variable {α σ : Type} {P : Request → Prop} {name : String} {G : α → Prop}
  {d : Dialogue (Except ClientError α)}

theorem isOf_handlesOf {handles : α → List Handle} {result : Except ClientError α}
    (h : Yields name G result) (hG : ∀ a, G a → ∀ h ∈ handles a, h.IsOf name) :
    ∀ h ∈ handlesOf handles result, h.IsOf name := by
  cases result with
  | ok a => exact hG a h
  | error e =>
      cases e with
      | notFound o => exact List.forall_mem_singleton.mpr ⟨h o rfl, trivial⟩
      | _ => exact List.forall_mem_nil _

theorem keeps_gaining {handles : α → List Handle} (hd : d.Keeps P (Yields name G))
    (hG : ∀ a, G a → ∀ h ∈ handles a, h.IsOf name) :
    (gaining d handles).Keeps P (Leaves name) :=
  hd.bind fun _ hresult ↦ isOf_handlesOf hresult hG

theorem keeps_gaining_nothing (hd : d.Keeps P (Yields name G)) :
    (gaining d fun _ ↦ []).Keeps P (Leaves name) :=
  keeps_gaining hd fun _ _ ↦ List.forall_mem_nil _

theorem keeps_acting {d : Dialogue (Except ClientError α × σ)} {handle : σ → Handle}
    {Q : Except ClientError α × σ → Prop} (hd : d.Keeps P Q)
    (hQ : ∀ p, Q p → Yields name G p.1 ∧ (handle p.2).IsOf name) :
    (acting d handle).Keeps P (Leaves name) := by
  refine hd.bind fun p hp ↦ ?_
  obtain ⟨hyields, hhandle⟩ := hQ p hp
  exact List.forall_mem_cons.mpr
    ⟨hhandle, isOf_handlesOf hyields fun _ _ ↦ List.forall_mem_nil _⟩

end Leaves

/-! ## Calls without a bucket -/

inductive Plain where
  | ping
  | clientId
  | setClientId (id : Bytes)
  | serverInfo
  | listBuckets
  | runMapReduce (job : String)
  | search (s : Search)

namespace Plain

def perform : Plain → Dialogue Outcome
  | ping => gaining Store.ping fun _ ↦ []
  | clientId => gaining Store.clientId fun _ ↦ []
  | setClientId id => gaining (Store.setClientId id) fun _ ↦ []
  | serverInfo => gaining Store.serverInfo fun _ ↦ []
  | listBuckets => gaining Store.listBuckets fun _ ↦ []
  | runMapReduce job => gaining (Store.runMapReduce job) fun _ ↦ []
  | search s => gaining s.run fun _ ↦ []

theorem keeps_perform (call : Plain) : call.perform.Keeps (·.bucket? = none) (·.2 = []) := by
  have hquery {α : Type} {q : Request} {f : q.Reply → Except ClientError α} (hq : q.bucket? = none)
      (hf : ∀ reply o, f reply ≠ .error (.notFound o)) :
      (gaining (.query q f) fun _ ↦ []).Keeps (·.bucket? = none) (·.2 = []) := by
    refine Keeps.bind (Q := fun result ↦ ∀ o, result ≠ .error (.notFound o))
      (Dialogue.keeps_query hq hf fun e he o heq ↦ he o (Except.error.inj heq)) ?_
    intro result hresult
    cases result with
    | ok a => exact rfl
    | error e =>
        cases e with
        | notFound o => exact absurd rfl (hresult o)
        | _ => exact rfl
  cases call <;> exact hquery rfl (by rintro _ _ ⟨⟩)

end Plain

/-! ## Calls with the name of a bucket -/

/-- What a relation leads to is loaded by a `load` for each link. -/
inductive Opening : Type 1 where
  | bucket (name : String)
  | bucketOfType (bucketType name : String)
  | getFrom (name key : String) (options : Options)
  | deleteFrom (name key : String) (options : Options)
  | containsIn (name key : String) (options : Options)
  | load (D : Type) [Mergeable D] (name key : String) (options : Options)
  | openFile (name key : String) (options : Options)
  | newObjectIn (name key : String)
  | newModel {D : Type} (name key : String) (doc : D)
  | createFile (name key contentType : String) (chunkSize : Nat) (options : Options)

namespace Opening

def name : Opening → String
  | bucket name | bucketOfType _ name | getFrom name _ _ | deleteFrom name _ _
  | containsIn name _ _ | load _ name _ _ | openFile name _ _ | newObjectIn name _
  | newModel name _ _ | createFile name _ _ _ _ => name

/-- A load gives the tombstone of an object that the store does not have.  An error from the code of
a document gives no handle that the caller did not have. -/
def perform : Opening → Dialogue Outcome
  | bucket name => gaining (Store.bucket name) fun b ↦ [.bucket b]
  | bucketOfType bucketType name =>
      gaining (.done (Store.bucketOfType bucketType name)) fun b ↦ [.bucket b]
  | getFrom name key options => gaining (Store.getFrom name key options) fun o ↦ [.object o]
  | deleteFrom name key options => gaining (Store.deleteFrom name key options) fun _ ↦ []
  | containsIn name key options => gaining (Store.containsIn name key options) fun _ ↦ []
  | load D name key options => (Store.getFrom name key options).bind fun fetched ↦
      match fetched.bind (Model.ofObject (D := D)) with
      | .ok m => .done (none, [.object m.object])
      | .error e => .done (some e, handlesOf (fun _ ↦ []) fetched)
  | openFile name key options => gaining (ChunkedFile.openFile name key options) fun f ↦ [.file f]
  | newObjectIn name key => .done (none, [.object (Store.newObjectIn name key)])
  | newModel name key doc => .done (none, [.object (Model.new name key doc).object])
  | createFile name key contentType chunkSize options =>
      gaining (ChunkedFile.create name key contentType chunkSize options) fun f ↦ [.file f]

/-- The caller is told what loading the model comes to. -/
theorem bind_perform_load (D : Type) [Mergeable D] (name key : String) (options : Options) :
    ((load D name key options).perform.bind fun outcome ↦ .done outcome.1) =
      (Model.load D name key options).bind fun result ↦ .done (errorOf result) := by
  rw [perform, Model.load, Dialogue.andThen, Dialogue.bind_assoc, Dialogue.bind_assoc]
  congr 1
  funext fetched
  cases fetched with
  | error e => rfl
  | ok o =>
      dsimp only [Except.bind, Dialogue.bind]
      cases Model.ofObject (D := D) o <;> rfl

theorem keeps_perform (call : Opening) :
    call.perform.Keeps (Request.Names call.name) (Leaves call.name) := by
  cases call with
  | bucket name =>
      exact keeps_gaining (Store.keeps_bucket name) fun b hb ↦
        List.forall_mem_singleton.mpr (Handle.isOf_bucket hb.1 hb.2)
  | bucketOfType bucketType name =>
      exact keeps_gaining (Store.yields_bucketOfType bucketType name) fun b hb ↦
        List.forall_mem_singleton.mpr (Handle.isOf_bucket hb.1 hb.2)
  | getFrom name key options =>
      exact keeps_gaining (Store.keeps_getFrom name key options) fun o ho ↦
        List.forall_mem_singleton.mpr (Handle.isOf_object ho)
  | deleteFrom name key options =>
      exact keeps_gaining_nothing (Store.keeps_deleteFrom name key options)
  | containsIn name key options =>
      exact keeps_gaining_nothing (Store.keeps_containsIn name key options)
  | load D name key options =>
      refine (Store.keeps_getFrom name key options).bind fun fetched hfetched ↦ ?_
      have hleft : ∀ h ∈ handlesOf (fun _ ↦ []) fetched, h.IsOf name :=
        isOf_handlesOf hfetched fun _ _ ↦ List.forall_mem_nil _
      cases fetched with
      | error e => exact hleft
      | ok o =>
          dsimp only [Except.bind]
          cases hmodel : Model.ofObject (D := D) o with
          | error e => exact hleft
          | ok m =>
              have hbucket := Object.bucket_of_mark_eq (Model.mark_ofObject hmodel)
              exact List.forall_mem_singleton.mpr (Handle.isOf_object (hbucket.trans hfetched))
  | openFile name key options =>
      exact keeps_gaining (ChunkedFile.keeps_openFile name key options) fun f hf ↦
        List.forall_mem_singleton.mpr hf
  | newObjectIn name key => exact List.forall_mem_singleton.mpr (Handle.isOf_object rfl)
  | newModel name key doc => exact List.forall_mem_singleton.mpr (Handle.isOf_object rfl)
  | createFile name key contentType chunkSize options =>
      exact keeps_gaining (ChunkedFile.keeps_create name key contentType chunkSize options)
        fun f hf ↦ List.forall_mem_singleton.mpr hf

end Opening

/-! ## Calls on a bucket -/

inductive Asking where
  | change (call : Bucket.Call)
  | newObject (key : String)
  | get (key : String) (options : Options)
  | contains (key : String) (options : Options)
  | delete (key : String) (options : Options)
  | indexQuery (index value : String)
  | indexQueryRange (index low high : String)
  | listKeys
  | counter (key : String) (options : Options)
  | getCounter (key : String) (options : Options)
  | fetch (kind : DataType.Kind) (key : String) (options : Options)

namespace Asking

def perform (b : Bucket) : Asking → Dialogue Outcome
  | change call => acting (call.perform b) .bucket
  | newObject key => .done (none, [.object (b.newObject key)])
  | get key options => gaining (b.get key options) fun o ↦ [.object o]
  | contains key options => gaining (b.contains key options) fun _ ↦ []
  | delete key options => gaining (b.delete key options) fun _ ↦ []
  | indexQuery index value => gaining (b.indexQuery index value) fun _ ↦ []
  | indexQueryRange index low high => gaining (b.indexQueryRange index low high) fun _ ↦ []
  | listKeys => gaining b.listKeys fun _ ↦ []
  | counter key options => .done (none, [.counter (b.counter key options)])
  | getCounter key options => gaining (b.getCounter key options) fun n ↦ [.counter n]
  | fetch kind key options => gaining (DataType.fetch kind b key options) fun d ↦ [.dataType d]

theorem keeps_perform {b : Bucket} (hb : b.name ≠ "") (call : Asking) :
    (call.perform b).Keeps (Request.Names b.name) (Leaves b.name) := by
  cases call with
  | change call =>
      exact keeps_acting (Bucket.Call.keeps_perform b call) fun p hp ↦
        ⟨hp.1, Handle.isOf_bucket hp.2 hb⟩
  | newObject key => exact List.forall_mem_singleton.mpr (Handle.isOf_object rfl)
  | get key options =>
      exact keeps_gaining (Object.keeps_fetch b.name b.bucketType key options) fun o ho ↦
        List.forall_mem_singleton.mpr (Handle.isOf_object ho)
  | contains key options => exact keeps_gaining_nothing (Object.keeps_isStored rfl)
  | delete key options => exact keeps_gaining_nothing (Object.keeps_delete rfl)
  | indexQuery index value => exact keeps_gaining_nothing (b.keeps_queryIndex index _)
  | indexQueryRange index low high => exact keeps_gaining_nothing (b.keeps_queryIndex index _)
  | listKeys => exact keeps_gaining_nothing b.keeps_listKeys
  | counter key options => exact List.forall_mem_singleton.mpr (Handle.isOf_counter rfl hb)
  | getCounter key options =>
      exact keeps_gaining (b.keeps_getCounter key options) fun n hn ↦
        List.forall_mem_singleton.mpr (Handle.isOf_counter hn hb)
  | fetch kind key options =>
      exact keeps_gaining (DataType.keeps_fetch kind b key options) fun d hd ↦
        List.forall_mem_singleton.mpr (Handle.isOf_dataType hd hb)

end Asking

/-! ## Calls on an object or a file -/

inductive Keeping : Type 1 where
  | plain (call : Object.Call)
  | save {D : Type} [Document D] (doc : D)
  | saveAs {D : Type} [Document D] (doc : D) (key : String)

/-- As with loading, an error from the code of a document gives no handle. -/
def Keeping.perform (o : Object) : Keeping → Dialogue Outcome
  | plain call => acting (call.perform o) .object
  | save doc => (Model.mk o doc).save.bind fun p ↦ .done (errorOf p.1, [.object p.2.object])
  | saveAs doc key =>
      ((Model.mk o doc).saveAs key).bind fun p ↦ .done (errorOf p.1, [.object p.2.object])

theorem Keeping.keeps_perform (o : Object) (call : Keeping) :
    (call.perform o).Keeps (Request.Names o.bucket) (Leaves o.bucket) := by
  cases call with
  | plain call =>
      exact keeps_acting (Object.Call.keeps_perform rfl call) fun p hp ↦
        ⟨hp.1, Handle.isOf_object hp.2⟩
  | save doc =>
      exact Keeps.bind (Model.keeps_save (m := ⟨o, doc⟩) rfl) fun p hp ↦
        List.forall_mem_singleton.mpr (Handle.isOf_object hp)
  | saveAs doc key =>
      exact Keeps.bind (Model.keeps_save (m := Model.setKey ⟨o, doc⟩ key) rfl) fun p hp ↦
        List.forall_mem_singleton.mpr (Handle.isOf_object hp)

inductive Filing where
  | write (buf : Bytes)
  | read (n : Nat)
  | seek (s : ChunkedFile.Seek)

def Filing.perform (f : ChunkedFile) : Filing → Dialogue Outcome
  | write buf => acting (f.write buf) .file
  | read n => acting (f.read n) .file
  | seek s => .done (none, (f.seek s).toOption.toList.map .file)

theorem Filing.keeps_perform {f : ChunkedFile} (hf : f.Whole) (call : Filing) :
    (call.perform f).Keeps (Request.Names f.root.bucket) (Leaves f.root.bucket) := by
  cases call with
  | write buf => exact keeps_acting (ChunkedFile.keeps_write rfl hf buf) fun _ hp ↦ hp
  | read n => exact keeps_acting (ChunkedFile.keeps_read rfl hf n) fun _ hp ↦ hp
  | seek s =>
      unfold perform ChunkedFile.seek
      dsimp only
      split
      · exact List.forall_mem_singleton.mpr ⟨rfl, hf⟩
      · exact List.forall_mem_nil _

/-! ## All calls -/

inductive Call : Type 1 where
  | plain (call : Plain)
  | opening (call : Opening)
  | onBucket (b : Bucket) (call : Asking)
  | onObject (o : Object) (call : Keeping)
  | onCounter (n : Counter) (call : Counter.Call)
  | onDataType (d : DataType.Handle) (call : DataType.Handle.Call)
  | onFile (f : ChunkedFile) (call : Filing)
  | edit (h h' : Handle) (hedits : h.Edits h')

namespace Call

def perform : Call → Dialogue Outcome
  | plain call => call.perform
  | opening call => call.perform
  | onBucket b call => call.perform b
  | onObject o call => call.perform o
  | onCounter n call => acting (call.perform n) .counter
  | onDataType d call => acting (call.perform d) .dataType
  | onFile f call => call.perform f
  | edit _ h' _ => .done (none, [h'])

/-- The handle that the call is made on. -/
def handle? : Call → Option Handle
  | plain _ | opening _ => none
  | onBucket b _ => some (.bucket b)
  | onObject o _ => some (.object o)
  | onCounter n _ => some (.counter n)
  | onDataType d _ => some (.dataType d)
  | onFile f _ => some (.file f)
  | edit h _ _ => some h

/-- The name of the bucket that the call is about. -/
def name? : Call → Option String
  | opening call => some call.name
  | c => c.handle?.map Handle.name

theorem name?_of_handle? {c : Call} {h : Handle} (hhandle : c.handle? = some h) :
    c.name? = some h.name := by
  cases c <;> cases hhandle <;> rfl

/-- A call asks about its own bucket alone, and so do the handles that it gives. -/
theorem keeps_perform {c : Call} (hsound : ∀ h, c.handle? = some h → h.Sound) {name : String}
    (hname : c.name? = some name) : c.perform.Keeps (Request.Names name) (Leaves name) := by
  cases c with
  | plain call => cases hname
  | opening call =>
      cases hname
      exact call.keeps_perform
  | onBucket b call =>
      cases hname
      exact call.keeps_perform (hsound _ rfl)
  | onObject o call =>
      cases hname
      exact call.keeps_perform o
  | onCounter n call =>
      cases hname
      exact keeps_acting (Counter.Call.keeps_perform n call) fun p hp ↦
        ⟨hp.1, Handle.isOf_counter hp.2 (hsound _ rfl)⟩
  | onDataType d call =>
      cases hname
      exact keeps_acting (DataType.Handle.Call.keeps_perform d call) fun p hp ↦
        ⟨hp.1, Handle.isOf_dataType hp.2 (hsound _ rfl)⟩
  | onFile f call =>
      cases hname
      exact call.keeps_perform (hsound _ rfl)
  | edit h h' hedits =>
      cases hname
      exact List.forall_mem_singleton.mpr (Handle.isOf_of_edits (hsound _ rfl) hedits)

/-! ### Calls about a bucket without a name -/

/-- The calls that ask about a bucket without a name. -/
inductive Unchecked : Call → Prop where
  | createFile {key contentType : String} {chunkSize : Nat} {options : Options} (hkey : key ≠ "")
      (hsize : ChunkedFile.validChunkSize chunkSize = true) :
      Unchecked (.opening (.createFile "" key contentType chunkSize options))
  | store {o : Object} (ho : o.bucket = "") : Unchecked (.onObject o (.plain .store))
  | reload {o : Object} (ho : o.bucket = "") (hkey : o.key ≠ "") :
      Unchecked (.onObject o (.plain .reload))
  | delete {o : Object} (ho : o.bucket = "") (hkey : o.key ≠ "") :
      Unchecked (.onObject o (.plain .delete))
  | save {o : Object} {D : Type} [Document D] {doc : D} {encoded : Bytes × List Link}
      (ho : o.bucket = "") (hencode : Document.encode doc = .ok encoded) :
      Unchecked (.onObject o (.save doc))
  | saveAs {o : Object} {D : Type} [Document D] {doc : D} {key : String}
      {encoded : Bytes × List Link} (ho : o.bucket = "")
      (hencode : Document.encode doc = .ok encoded) : Unchecked (.onObject o (.saveAs doc key))
  | write {f : ChunkedFile} {buf : Bytes} (hf : f.root.bucket = "") (hbuf : buf ≠ [])
      (hchunk : f.Fresh ∨ f.HasChunk (f.pos / f.chunkSize)) : Unchecked (.onFile f (.write buf))

/-- The calls that are turned down for want of a name. -/
inductive Refused : Call → Prop where
  | bucket : Refused (.opening (.bucket ""))
  | bucketOfType (bucketType : String) : Refused (.opening (.bucketOfType bucketType ""))
  | getFrom (key : String) (options : Options) : Refused (.opening (.getFrom "" key options))
  | deleteFrom (key : String) (options : Options) : Refused (.opening (.deleteFrom "" key options))
  | containsIn (key : String) (options : Options) : Refused (.opening (.containsIn "" key options))
  | load (D : Type) [Mergeable D] (key : String) (options : Options) :
      Refused (.opening (.load D "" key options))
  | openFile (key : String) (options : Options) : Refused (.opening (.openFile "" key options))
  | write {f : ChunkedFile} {buf : Bytes} (hf : f.root.bucket = "") (hbuf : buf ≠ [])
      (hfresh : ¬f.Fresh) (hchunk : ¬f.HasChunk (f.pos / f.chunkSize)) :
      Refused (.onFile f (.write buf))
  | read {f : ChunkedFile} {n : Nat} (hf : f.root.bucket = "") (hn : n ≠ 0) (hpos : f.pos < f.size)
      (hchunk : ¬f.HasChunk (f.pos / f.chunkSize)) : Refused (.onFile f (.read n))

/-- The calls that give something new, of whatever name. -/
inductive Begins : Call → Prop where
  | newObjectIn (key : String) : Begins (.opening (.newObjectIn "" key))
  | newModel {D : Type} (key : String) (doc : D) : Begins (.opening (.newModel "" key doc))
  | createFile {key contentType : String} {chunkSize : Nat} {options : Options} (hkey : key ≠ "")
      (hsize : ChunkedFile.validChunkSize chunkSize = true) :
      Begins (.opening (.createFile "" key contentType chunkSize options))

theorem Refused.perform_eq {c : Call} (h : c.Refused) :
    ∃ gained, c.perform = .done (some .emptyBucketName, gained) := by
  cases h with
  | @write f buf hf hbuf hfresh hchunk =>
      refine ⟨[.file { f with chunk := none }], ?_⟩
      rw [perform, Filing.perform, ChunkedFile.write_unnamed hf hbuf hfresh hchunk]
      rfl
  | @read f n hf hn hpos hchunk =>
      refine ⟨[.file { f with chunk := none }], ?_⟩
      rw [perform, Filing.perform, ChunkedFile.read_unnamed hf hn hpos hchunk]
      rfl
  | _ => exact ⟨_, rfl⟩

theorem Unchecked.perform_eq {c : Call} (h : c.Unchecked)
    (hsound : ∀ h, c.handle? = some h → h.Sound) :
    ∃ q next, c.perform = .ask q next ∧ q.bucket? = some [] := by
  have hempty {name : String} (hname : name = "") : some (Utf8.encode name) = some [] := by
    rw [hname]
    rfl
  cases h with
  | createFile hkey hsize =>
      rw [perform, Opening.perform, ChunkedFile.create_of_valid hkey hsize]
      exact ⟨_, _, rfl, rfl⟩
  | store ho => exact ⟨_, _, rfl, hempty ho⟩
  | reload ho hkey =>
      rw [perform, Keeping.perform, Object.Call.perform, Object.reload,
        if_neg (mt String.isEmpty_iff.mp hkey)]
      exact ⟨_, _, rfl, hempty ho⟩
  | delete ho hkey =>
      rw [perform, Keeping.perform, Object.Call.perform, Object.delete,
        if_neg (mt String.isEmpty_iff.mp hkey)]
      exact ⟨_, _, rfl, hempty ho⟩
  | @save o D _ doc encoded ho hencode =>
      obtain ⟨q, next, hsave, hq⟩ := Model.save_asks (m := ⟨o, doc⟩) hencode
      rw [perform, Keeping.perform, hsave]
      exact ⟨_, _, rfl, hq.trans (hempty ho)⟩
  | @saveAs o D _ doc key encoded ho hencode =>
      obtain ⟨q, next, hsave, hq⟩ := Model.save_asks (m := Model.setKey ⟨o, doc⟩ key) hencode
      rw [perform, Keeping.perform, Model.saveAs, hsave]
      exact ⟨_, _, rfl, hq.trans (hempty ho)⟩
  | write hf hbuf hchunk =>
      obtain ⟨q, next, hwrite, hq⟩ := ChunkedFile.write_asks (hsound _ rfl) hbuf hchunk
      rw [perform, Filing.perform, hwrite]
      exact ⟨_, _, rfl, hq.trans (hempty hf)⟩

theorem perform_opening {call : Opening} (hname : call.name = "")
    (hbegins : ¬Begins (.opening call)) : ∃ e, call.perform = .done (some e, []) := by
  cases call with
  | newObjectIn name key =>
      obtain rfl : name = "" := hname
      exact absurd (.newObjectIn key) hbegins
  | newModel name key doc =>
      obtain rfl : name = "" := hname
      exact absurd (.newModel key doc) hbegins
  | createFile name key contentType chunkSize options =>
      obtain rfl : name = "" := hname
      have hinvalid : ¬(key ≠ "" ∧ ChunkedFile.validChunkSize chunkSize = true) :=
        fun h ↦ hbegins (.createFile h.1 h.2)
      rw [Opening.perform, ChunkedFile.create_of_invalid hinvalid]
      exact ⟨_, rfl⟩
  | _ =>
      cases hname
      exact ⟨_, rfl⟩

theorem perform_onObject {o : Object} {call : Keeping} (ho : o.bucket = "")
    (hchecked : ¬Unchecked (.onObject o call)) : ∃ outcome, call.perform o = .done outcome := by
  cases call with
  | plain call =>
      cases call with
      | store => exact absurd (.store ho) hchecked
      | reload =>
          have hkey : o.key = "" := by_contra fun hkey ↦ hchecked (.reload ho hkey)
          rw [Keeping.perform, Object.Call.perform, Object.reload,
            if_pos (String.isEmpty_iff.mpr hkey)]
          exact ⟨_, rfl⟩
      | delete =>
          have hkey : o.key = "" := by_contra fun hkey ↦ hchecked (.delete ho hkey)
          rw [Keeping.perform, Object.Call.perform, Object.delete,
            if_pos (String.isEmpty_iff.mpr hkey)]
          exact ⟨_, rfl⟩
  | save doc =>
      cases hencode : Document.encode doc with
      | ok encoded => exact absurd (.save ho hencode) hchecked
      | error e =>
          rw [Keeping.perform, Model.save_of_error hencode]
          exact ⟨_, rfl⟩
  | saveAs doc key =>
      cases hencode : Document.encode doc with
      | ok encoded => exact absurd (.saveAs ho hencode) hchecked
      | error e =>
          rw [Keeping.perform, Model.saveAs, Model.save_of_error hencode]
          exact ⟨_, rfl⟩

theorem perform_onFile {f : ChunkedFile} {call : Filing} (hwhole : f.Whole)
    (hf : f.root.bucket = "") (hchecked : ¬Unchecked (.onFile f call)) :
    ∃ outcome, call.perform f = .done outcome := by
  cases call with
  | write buf =>
      by_cases hbuf : buf = []
      · subst hbuf
        exact ⟨_, rfl⟩
      · have hchunk := not_or.mp fun h ↦ hchecked (.write hf hbuf h)
        obtain ⟨gained, hrefused⟩ := (Refused.write hf hbuf hchunk.1 hchunk.2).perform_eq
        exact ⟨_, hrefused⟩
  | read n =>
      by_cases hhand : n = 0 ∨ f.size ≤ f.pos ∨ f.HasChunk (f.pos / f.chunkSize)
      · obtain ⟨result, hread⟩ := ChunkedFile.read_of_hasChunk hwhole hhand
        rw [Filing.perform, hread]
        exact ⟨_, rfl⟩
      · obtain ⟨hn, hmore⟩ := not_or.mp hhand
        obtain ⟨hpos, hchunk⟩ := not_or.mp hmore
        obtain ⟨gained, hrefused⟩ :=
          (Refused.read hf hn (Nat.not_le.mp hpos) hchunk).perform_eq
        exact ⟨_, hrefused⟩
  | seek s => exact ⟨_, rfl⟩

/-- Any other call about a bucket without a name ends before it asks. -/
theorem perform_of_not_unchecked {c : Call} (hsound : ∀ h, c.handle? = some h → h.Sound)
    (hname : c.name? = some "") (hchecked : ¬c.Unchecked) :
    ∃ outcome, c.perform = .done outcome := by
  cases c with
  | plain call => cases hname
  | opening call =>
      by_cases hbegins : Begins (.opening call)
      · cases hbegins with
        | createFile hkey hsize => exact absurd (.createFile hkey hsize) hchecked
        | _ => exact ⟨_, rfl⟩
      · obtain ⟨e, hperform⟩ := perform_opening (Option.some.inj hname) hbegins
        exact ⟨_, hperform⟩
  | onObject o call => exact perform_onObject (Option.some.inj hname) hchecked
  | onFile f call => exact perform_onFile (hsound _ rfl) (Option.some.inj hname) hchecked
  | edit h h' hedits => exact ⟨_, rfl⟩
  | onBucket b call => exact absurd (Option.some.inj hname) (hsound _ rfl)
  | onCounter n call => exact absurd (Option.some.inj hname) (hsound _ rfl)
  | onDataType d call => exact absurd (Option.some.inj hname) (hsound _ rfl)

/-! ### One call -/

section Step

variable {c : Call} {asked : List Request} {outcome : Outcome}

theorem keeps_of_name?_eq_none (hname : c.name? = none) :
    c.perform.Keeps (·.bucket? = none) (·.2 = []) := by
  cases c with
  | plain call => exact call.keeps_perform
  | _ => cases hname

/-- A call asks about a bucket without a name if and only if it is unchecked. -/
theorem asks_unnamed_iff (hsound : ∀ h, c.handle? = some h → h.Sound)
    (hrun : c.perform.Trace asked outcome) :
    (∃ q ∈ asked, q.bucket? = some []) ↔ c.Unchecked := by
  constructor
  · rintro ⟨q, hq, hunnamed⟩
    cases hname : c.name? with
    | none =>
        have hnone := ((keeps_of_name?_eq_none hname).of_trace hrun).1 q hq
        rw [hnone] at hunnamed
        cases hunnamed
    | some name =>
        have hnames := ((keeps_perform hsound hname).of_trace hrun).1 q hq
        have hempty : name = "" :=
          by_contra fun hne ↦ Utf8.encode_ne_nil hne (hnames [] hunnamed).symm
        subst hempty
        -- Without a name and checked, the call would have ended before it asked.
        by_contra hchecked
        obtain ⟨_, hdone⟩ := perform_of_not_unchecked hsound hname hchecked
        rw [hdone] at hrun
        cases hrun
        cases hq
  · intro hunchecked
    obtain ⟨q, next, hask, hunnamed⟩ := hunchecked.perform_eq hsound
    rw [hask] at hrun
    cases hrun
    exact ⟨q, List.mem_cons_self, hunnamed⟩

/-- A handle without a name comes from another one, or from a call that begins something. -/
theorem begins_or_of_gives (hsound : ∀ h, c.handle? = some h → h.Sound)
    (hrun : c.perform.Trace asked outcome) {h : Handle} (hgives : h ∈ outcome.2) :
    h.Sound ∧ (h.name = "" → c.Begins ∨ ∃ h', c.handle? = some h' ∧ h'.name = "") := by
  cases hname : c.name? with
  | none =>
      have hnothing := ((keeps_of_name?_eq_none hname).of_trace hrun).2
      rw [hnothing] at hgives
      cases hgives
  | some name =>
      obtain ⟨hname', hsound'⟩ := ((keeps_perform hsound hname).of_trace hrun).2 h hgives
      refine ⟨hsound', fun hempty ↦ ?_⟩
      subst hname'
      rw [hempty] at hname
      cases hhandle : c.handle? with
      | some h' =>
          exact Or.inr ⟨h', rfl, Option.some.inj ((name?_of_handle? hhandle).symm.trans hname)⟩
      | none =>
          cases c with
          | opening call =>
              -- What is made on nothing and begins nothing has failed, and gives nothing.
              refine Or.inl (by_contra fun hbegins ↦ ?_)
              obtain ⟨e, hdone⟩ := perform_opening (Option.some.inj hname) hbegins
              rw [perform, hdone] at hrun
              cases hrun
              cases hgives
          | plain call => cases hname
          | _ => cases hhandle

end Step

end Call

/-! ## Runs -/

/-- Calls one after the other, the handles that they have given, and what they have asked. -/
inductive Run : List Call → List Handle → List Request → Prop where
  | start : Run [] [] []
  | call {calls : List Call} {handles : List Handle} {log : List Request} {c : Call}
      {asked : List Request} {outcome : Outcome} (h : Run calls handles log)
      (hheld : ∀ h, c.handle? = some h → h ∈ handles) (hrun : c.perform.Trace asked outcome) :
      Run (calls ++ [c]) (handles ++ outcome.2) (log ++ asked)

namespace Run

variable {calls : List Call} {handles : List Handle} {log : List Request}

theorem sound (h : Run calls handles log) : ∀ h ∈ handles, h.Sound := by
  induction h with
  | start => exact List.forall_mem_nil _
  | call _ hheld hrun ih =>
      have hsound h (hh : _ = some h) := ih h (hheld h hh)
      exact List.forall_mem_append.mpr
        ⟨ih, fun h hh ↦ (Call.begins_or_of_gives hsound hrun hh).1⟩

theorem begins_of_mem (h : Run calls handles log) {held : Handle} (hheld : held ∈ handles)
    (hname : held.name = "") : ∃ c ∈ calls, c.Begins := by
  induction h generalizing held with
  | start => cases hheld
  | @call calls handles log c asked outcome h hc hrun ih =>
      have hprior (held' : Handle) (hmem : held' ∈ handles) (hname' : held'.name = "") :
          ∃ c' ∈ calls ++ [c], c'.Begins := by
        obtain ⟨c', hc', hbegins⟩ := ih hmem hname'
        exact ⟨c', List.mem_append_left _ hc', hbegins⟩
      rcases List.mem_append.mp hheld with hmem | hmem
      · exact hprior held hmem hname
      · have hsound h' (hh' : c.handle? = some h') := h.sound h' (hc h' hh')
        rcases (Call.begins_or_of_gives hsound hrun hmem).2 hname with hbegins | ⟨held', hh', hn'⟩
        · exact ⟨c, List.mem_append_right _ (List.mem_singleton_self c), hbegins⟩
        · exact hprior held' (hc held' hh') hn'

theorem exists_asked_iff (h : Run calls handles log) :
    (∃ q ∈ log, q.bucket? = some []) ↔ ∃ c ∈ calls, c.Unchecked := by
  induction h with
  | start => simp
  | @call calls handles log c asked outcome h hc hrun ih =>
      have hsound h' (hh' : c.handle? = some h') := h.sound h' (hc h' hh')
      have hasked := Call.asks_unnamed_iff hsound hrun
      simp only [List.mem_append, or_and_right, exists_or, List.mem_singleton, exists_eq_left, ih,
        hasked]

/-- In any run of calls a request without the name of a bucket is asked if and only if a call is
unchecked.  The name that is asked about is the first field of what is sent.  The calls that check
the name fail before they ask, and what has no name was begun without one. -/
theorem unnamed_asked_iff (h : Run calls handles log) :
    ((∃ q ∈ log, q.bucket? = some []) ↔ ∃ c ∈ calls, c.Unchecked) ∧
    (∀ q ∈ log, ∀ name, q.bucket? = some name →
      ∃ t rest, q.frame = Frame.encodeMessage q.code t (Wire.Slot.ofBytes name :: rest)) ∧
    (∀ c ∈ calls, c.Refused → ∃ gained, c.perform = .done (some .emptyBucketName, gained)) ∧
    (∀ held ∈ handles, held.name = "" → ∃ c ∈ calls, c.Begins) :=
  ⟨h.exists_asked_iff, fun _ _ _ ↦ Request.frame_of_bucket?, fun _ _ ↦ Call.Refused.perform_eq,
    fun _ hheld ↦ h.begins_of_mem hheld⟩

/-- An object that is made for no bucket is stored, and the store is asked about no bucket. -/
theorem unnamed_asked_store :
    let o := Store.newObjectIn "" "k"
    let calls : List Call := [.opening (.newObjectIn "" "k"), .onObject o (.plain .store)]
    Run calls [.object o, .object (o.afterPut {})] [.put o.putRequest] ∧
      (∃ q ∈ [Request.put o.putRequest], q.bucket? = some []) ∧ ∃ c ∈ calls, c.Begins := by
  intro o calls
  have hmade : Run [.opening (.newObjectIn "" "k")] [.object o] [] :=
    Run.start.call (c := .opening (.newObjectIn "" "k")) (by rintro _ ⟨⟩)
      (Dialogue.Trace.done (none, [Handle.object o]))
  have htrace : (Call.onObject o (.plain .store)).perform.Trace [.put o.putRequest]
      (none, [.object (o.afterPut {})]) :=
    .ask (.ok ({} : PutReply)) (by rintro _ ⟨⟩) (Dialogue.Trace.done (none, _))
  have hstored : Run calls [.object o, .object (o.afterPut {})] [.put o.putRequest] := by
    refine hmade.call ?_ htrace
    rintro _ ⟨⟩
    exact List.mem_cons_self
  obtain ⟨hasked, -, -, hbegun⟩ := hstored.unnamed_asked_iff
  exact ⟨hstored, hasked.mpr ⟨_, List.mem_cons_of_mem _ List.mem_cons_self, .store rfl⟩,
    hbegun _ List.mem_cons_self rfl⟩

end Run
end Errand
end ReplicaClient
