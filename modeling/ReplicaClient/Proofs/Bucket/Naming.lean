import ReplicaClient.Proofs.Bucket.Trace
import ReplicaClient.Proofs.Client.Handles
import ReplicaClient.Proofs.File.Layout
import ReplicaClient.Proofs.Object.Provenance

/-!
# Where names of buckets come from

Every request names the bucket of the handle or of the argument that it is made for.  A name is
checked on the way from a name to a bucket, and on the way from a name to something that the store
has.  It is not checked on the way from a name to an object, a model or a file that is new.
-/

namespace ReplicaClient

open Dialogue (Keeps keeps_query keeps_update)

/-! ## Dialogues about one bucket -/

/-- A result of this kind, or an error that has no tombstone of another bucket. -/
def Yields {α : Type} (name : String) (G : α → Prop) : Except ClientError α → Prop
  | .ok a => G a
  | .error e => ∀ o, e = .notFound o → o.bucket = name

/-- The handle is of this kind afterwards, and there is no tombstone of another bucket. -/
def Stays {σ : Type} (name : String) (G : σ → Prop) (p : Except ClientError Unit × σ) : Prop :=
  Yields name (fun _ ↦ True) p.1 ∧ G p.2

section Single

variable {α σ : Type} {P : Request → Prop} {name : String} {G : α → Prop} {q : Request}

theorem yields_of_ne {e : ClientError} (h : ∀ o, e ≠ .notFound o) : Yields name G (.error e) :=
  fun o heq ↦ absurd heq (h o)

theorem keeps_query_ok {f : q.Reply → α} (hq : P q) :
    (Dialogue.query q fun reply ↦ .ok (f reply)).Keeps P (Yields name fun _ ↦ True) :=
  keeps_query hq (fun _ ↦ trivial) fun _ ↦ yields_of_ne

theorem keeps_update_ok {handle : σ} {G : σ → Prop} {f : q.Reply → σ} (hq : P q)
    (hf : ∀ reply, G (f reply)) (hhandle : G handle) :
    (Dialogue.update handle q fun reply ↦ (.ok (), f reply)).Keeps P (Stays name G) :=
  keeps_update hq (fun reply ↦ ⟨trivial, hf reply⟩) fun _ h ↦ ⟨yields_of_ne h, hhandle⟩

theorem keeps_keeping {d : Dialogue (Except ClientError Unit)} {handle : σ} {G : σ → Prop}
    (hd : d.Keeps P (Yields name fun _ ↦ True)) (hhandle : G handle) :
    (d.keeping handle).Keeps P (Stays name G) :=
  hd.bind fun _ hresult ↦ ⟨hresult, hhandle⟩

end Single

namespace Object

variable (o : Object)

theorem bucket_setContent (contents : List Content) : (o.setContent contents).bucket = o.bucket :=
  bucket_of_mark_eq (o.mark_setContent contents)

theorem bucket_afterPut (reply : PutReply) : (o.afterPut reply).bucket = o.bucket := by
  unfold afterPut
  dsimp only
  split <;> split <;> rfl

theorem keeps_fetch (bucket : String) (bucketType : Option String) (key : String)
    (options : Options) :
    (fetch bucket bucketType key options).Keeps (Request.Names bucket)
      (Yields bucket (·.bucket = bucket)) := by
  refine keeps_query (q := fetchRequest _) (Request.names_of_eq rfl) ?_ fun e ↦ yields_of_ne
  intro reply
  unfold afterFetch
  split
  · rintro _ ⟨⟩
    rfl
  · exact bucket_setContent _ _

variable {o} {name : String}

theorem keeps_store (h : o.bucket = name) :
    o.store.Keeps (Request.Names name) (Stays name (·.bucket = name)) := by
  subst h
  exact keeps_update_ok (q := .put o.putRequest) (Request.names_of_eq rfl) o.bucket_afterPut rfl

theorem keeps_delete (h : o.bucket = name) :
    o.delete.Keeps (Request.Names name) (Yields name fun _ ↦ True) := by
  subst h
  unfold delete
  split
  · rintro _ ⟨⟩
  · exact keeps_query_ok (q := .delete o.deleteRequest) (Request.names_of_eq rfl)

theorem keeps_reload (h : o.bucket = name) :
    o.reload.Keeps (Request.Names name) (Stays name (·.bucket = name)) := by
  subst h
  unfold reload
  split
  · refine ⟨?_, rfl⟩
    rintro _ ⟨⟩
  · refine keeps_update (q := o.reloadRequest) (Request.names_of_eq rfl) (fun reply ↦ ?_)
      fun _ h ↦ ⟨yields_of_ne h, rfl⟩
    unfold afterReload
    split
    · exact ⟨trivial, rfl⟩
    · dsimp only
      split
      · refine ⟨?_, rfl⟩
        rintro _ ⟨⟩
        rfl
      · exact ⟨trivial, bucket_setContent _ _⟩

theorem keeps_isStored (h : o.bucket = name) :
    o.isStored.Keeps (Request.Names name) (Yields name fun _ ↦ True) := by
  subst h
  exact keeps_query_ok (q := o.headRequest) (Request.names_of_eq rfl)

theorem Call.keeps_perform (h : o.bucket = name) (call : Call) :
    (call.perform o).Keeps (Request.Names name) (Stays name (·.bucket = name)) := by
  cases call with
  | store => exact keeps_store h
  | reload => exact keeps_reload h
  | delete => exact keeps_keeping (keeps_delete h) h

end Object

namespace Bucket

variable (b : Bucket)

theorem keeps_refresh :
    b.refresh.Keeps (Request.Names b.name) (Stays b.name (·.name = b.name)) :=
  keeps_update_ok (q := .getBucket b.nameBytes b.typeBytes) (Request.names_of_eq rfl)
    (fun _ ↦ rfl) rfl

theorem keeps_setProps (change : PropsChange) (props : BucketProps) :
    (b.setProps change props).Keeps (Request.Names b.name) (Stays b.name (·.name = b.name)) :=
  keeps_update_ok (q := .setBucket b.nameBytes change b.typeBytes) (Request.names_of_eq rfl)
    (fun _ ↦ rfl) rfl

theorem keeps_resetProperties :
    b.resetProperties.Keeps (Request.Names b.name) (Stays b.name (·.name = b.name)) := by
  refine ⟨Request.names_of_eq rfl, fun reply hheard ↦ ?_⟩
  cases reply with
  | error e => exact ⟨yields_of_ne fun o heq ↦ hheard o (congrArg Except.error heq), rfl⟩
  | ok _ => exact b.keeps_refresh

theorem Call.keeps_perform (call : Call) :
    (call.perform b).Keeps (Request.Names b.name) (Stays b.name (·.name = b.name)) := by
  cases call with
  | refresh => exact b.keeps_refresh
  | resetProperties => exact b.keeps_resetProperties
  | _ => exact b.keeps_setProps _ _

theorem keeps_queryIndex (index : String) (selection : IndexSelection) :
    (b.queryIndex index selection).Keeps (Request.Names b.name) (Yields b.name fun _ ↦ True) :=
  keeps_query_ok (q := .index b.nameBytes (Utf8.encode index) selection b.typeBytes)
    (Request.names_of_eq rfl)

theorem keeps_listKeys :
    b.listKeys.Keeps (Request.Names b.name) (Yields b.name fun _ ↦ True) :=
  keeps_query_ok (q := .listKeys b.nameBytes b.typeBytes) (Request.names_of_eq rfl)

end Bucket

namespace Counter

variable (c : Counter)

theorem keeps_reload :
    c.reload.Keeps (Request.Names c.bucket.name) (Stays c.bucket.name (·.bucket = c.bucket)) :=
  keeps_update_ok (q := .counterGet _) (Request.names_of_eq rfl) (fun _ ↦ rfl) rfl

theorem keeps_add (amount : Int64) (reload : Bool) :
    (c.add amount reload).Keeps (Request.Names c.bucket.name)
      (Stays c.bucket.name (·.bucket = c.bucket)) := by
  refine keeps_update_ok (q := .counterUpdate _) (Request.names_of_eq rfl) (fun _ ↦ ?_) rfl
  split <;> rfl

theorem keeps_subtract (amount : Int64) (reload : Bool) :
    (c.subtract amount reload).Keeps (Request.Names c.bucket.name)
      (Stays c.bucket.name (·.bucket = c.bucket)) := by
  unfold subtract
  split
  · refine ⟨?_, rfl⟩
    rintro _ ⟨⟩
  · exact c.keeps_add _ reload

theorem Call.keeps_perform (call : Call) :
    (call.perform c).Keeps (Request.Names c.bucket.name)
      (Stays c.bucket.name (·.bucket = c.bucket)) := by
  cases call with
  | reload => exact c.keeps_reload
  | increment amount readBack => exact c.keeps_add amount readBack
  | decrement amount readBack => exact c.keeps_subtract amount readBack
  | destroy =>
      exact keeps_keeping (keeps_query_ok (q := .delete _) (Request.names_of_eq rfl)) rfl

end Counter

namespace DataType

theorem keeps_fetch (kind : Kind) (b : Bucket) (key : String) (options : Options) :
    (fetch kind b key options).Keeps (Request.Names b.name)
      (Yields b.name fun h ↦ h.bucket = b) := by
  refine keeps_query (q := .dataTypeFetch _) (Request.names_of_eq rfl) ?_ fun _ ↦ yields_of_ne
  intro reply
  unfold afterFetch
  split
  · exact rfl
  · rintro _ ⟨⟩

namespace Handle

variable (h : Handle)

theorem bucket_afterStore (reply : DataTypeUpdateReply) :
    (h.afterStore reply).bucket = h.bucket := by
  unfold afterStore
  dsimp only
  split <;> rfl

theorem Call.keeps_perform (call : Call) :
    (call.perform h).Keeps (Request.Names h.bucket.name)
      (Stays h.bucket.name (·.bucket = h.bucket)) := by
  cases call with
  | store =>
      exact keeps_update_ok (q := .dataTypeUpdate h.updateRequest) (Request.names_of_eq rfl)
        h.bucket_afterStore rfl
  | destroy =>
      exact keeps_keeping (keeps_query_ok (q := .delete _) (Request.names_of_eq rfl)) rfl

end Handle
end DataType

namespace Bucket

theorem keeps_getCounter (b : Bucket) (key : String) (options : Options) :
    (b.getCounter key options).Keeps (Request.Names b.name) (Yields b.name (·.bucket = b)) := by
  refine (b.counter key options).keeps_reload.bind ?_
  rintro ⟨result, n⟩ ⟨hresult, hbucket⟩
  cases result with
  | error e => exact hresult
  | ok _ => exact hbucket

end Bucket

namespace Store

variable {name : String}

theorem bucketHandle_of_ne (h : name ≠ "") (bucketType : Option String) :
    bucketHandle name bucketType = .ok { name, bucketType } :=
  if_neg fun hempty ↦ h (String.isEmpty_iff.mp hempty)

/-- What is asked of a bucket that has been checked is asked of this bucket or not at all. -/
theorem keeps_checked {α : Type} {G : α → Prop} (name : String) (bucketType : Option String)
    {f : Bucket → Dialogue (Except ClientError α)}
    (h : name ≠ "" → (f { name, bucketType }).Keeps (Request.Names name) (Yields name G)) :
    Keeps (Request.Names name) (Yields name G)
      (match bucketHandle name bucketType with
        | .error e => Dialogue.refuse e
        | .ok b => f b) := by
  by_cases hname : name = ""
  · subst hname
    rintro _ ⟨⟩
  · rw [bucketHandle_of_ne hname]
    exact h hname

theorem keeps_bucket (name : String) :
    (bucket name).Keeps (Request.Names name) (Yields name fun b ↦ b.name = name ∧ name ≠ "") := by
  refine keeps_checked name none fun hname ↦ Keeps.bind (Bucket.keeps_refresh { name }) ?_
  rintro ⟨result, b⟩ ⟨hresult, hb⟩
  cases result with
  | error e => exact hresult
  | ok _ => exact ⟨hb, hname⟩

theorem yields_bucketOfType (bucketType name : String) :
    Yields name (fun b ↦ b.name = name ∧ name ≠ "") (bucketOfType bucketType name) := by
  by_cases hname : name = ""
  · subst hname
    rintro _ ⟨⟩
  · rw [bucketOfType, bucketHandle_of_ne hname]
    exact ⟨rfl, hname⟩

theorem keeps_getFrom (bucket key : String) (options : Options) :
    (getFrom bucket key options).Keeps (Request.Names bucket)
      (Yields bucket (·.bucket = bucket)) :=
  keeps_checked bucket none (f := fun b ↦ b.get key options) fun _ ↦
    Object.keeps_fetch bucket none key options

theorem keeps_deleteFrom (bucket key : String) (options : Options) :
    (deleteFrom bucket key options).Keeps (Request.Names bucket) (Yields bucket fun _ ↦ True) :=
  keeps_checked bucket none (f := fun b ↦ b.delete key options) fun _ ↦ Object.keeps_delete rfl

theorem keeps_containsIn (bucket key : String) (options : Options) :
    (containsIn bucket key options).Keeps (Request.Names bucket) (Yields bucket fun _ ↦ True) :=
  keeps_checked bucket none (f := fun b ↦ b.contains key options) fun _ ↦
    Object.keeps_isStored rfl

end Store

namespace Model

variable {D : Type} {name : String}

theorem keeps_save [Document D] {m : Model D} (h : m.object.bucket = name) :
    m.save.Keeps (Request.Names name) (·.2.object.bucket = name) := by
  unfold save
  cases Document.encode m.doc with
  | error e => exact h
  | ok encoded =>
      obtain ⟨body, links⟩ := encoded
      have hbucket := Object.bucket_of_mark_eq
        (mark_withDocument m.object (relationTags D) body links)
      exact (Object.keeps_store (hbucket.trans h)).bind fun _ hstored ↦ hstored.2

theorem save_of_error [Document D] {m : Model D} {e : ClientError}
    (h : Document.encode m.doc = .error e) : m.save = .done (.error e, m) := by
  unfold save
  rw [h]

theorem save_asks [Document D] {m : Model D} {encoded : Bytes × List Link}
    (h : Document.encode m.doc = .ok encoded) :
    ∃ q next, m.save = .ask q next ∧ q.bucket? = some (Utf8.encode m.object.bucket) := by
  have hbucket := Object.bucket_of_mark_eq
    (mark_withDocument m.object (relationTags D) encoded.1 encoded.2)
  unfold save
  rw [h, ← hbucket]
  exact ⟨_, _, rfl, rfl⟩

end Model

namespace ChunkedFile

variable (f : ChunkedFile)

/-- The chunk at hand is in the bucket of the root. -/
def Whole : Prop :=
  ∀ chunk, f.chunk = some chunk → chunk.bucket = f.root.bucket

/-- The chunk with the given number is at hand. -/
def HasChunk (index : Nat) : Prop :=
  ∃ chunk, f.chunk = some chunk ∧ chunk.key = chunkKey f.root.key index

/-- The chunk at the cursor is yet to be made. -/
def Fresh : Prop :=
  f.size ≤ f.pos / f.chunkSize * f.chunkSize

/-- Nothing but what is in this bucket. -/
def Within {α : Type} (name : String) (G : α → Prop) (p : Except ClientError α × ChunkedFile) :
    Prop :=
  Yields name G p.1 ∧ p.2.root.bucket = name ∧ p.2.Whole

variable {f} {name : String}

theorem key_ne_of_not_hasChunk {index : Nat} (h : ¬f.HasChunk index) :
    ∀ chunk, f.chunk = some chunk → chunk.key ≠ chunkKey f.root.key index :=
  fun chunk hchunk hkey ↦ h ⟨chunk, hchunk, hkey⟩

theorem whole_of_chunk {chunk : Object} (h : chunk.bucket = f.root.bucket) :
    ({ f with chunk := some chunk } : ChunkedFile).Whole := by
  rintro _ ⟨⟩
  exact h

theorem keeps_chunkAt (hname : f.root.bucket = name) (hf : f.Whole) (index : Nat) (make : Bool) :
    (f.chunkAt index make).Keeps (Request.Names name) (Within name (·.bucket = name)) := by
  subst hname
  by_cases hhas : f.HasChunk index
  · obtain ⟨chunk, hchunk, hkey⟩ := hhas
    rw [chunkAt_of_key_eq hchunk hkey]
    exact ⟨hf chunk hchunk, rfl, hf⟩
  · rw [chunkAt_of_key_ne (key_ne_of_not_hasChunk hhas)]
    cases make with
    | true => exact ⟨rfl, rfl, whole_of_chunk rfl⟩
    | false =>
        refine (Store.keeps_getFrom _ _ _).bind fun result hresult ↦ ?_
        cases result with
        | error e =>
            refine ⟨hresult, rfl, ?_⟩
            rintro _ ⟨⟩
        | ok chunk => exact ⟨hresult, rfl, whole_of_chunk hresult⟩

/-- A chunk that is at hand or to be made is not asked for. -/
theorem chunkAt_of_hasChunk (hf : f.Whole) (index : Nat) (make : Bool)
    (h : make = true ∨ f.HasChunk index) :
    ∃ chunk f', f.chunkAt index make = .done (.ok chunk, f') ∧ chunk.bucket = f.root.bucket := by
  by_cases hhas : f.HasChunk index
  · obtain ⟨chunk, hchunk, hkey⟩ := hhas
    exact ⟨chunk, f, chunkAt_of_key_eq hchunk hkey make, hf chunk hchunk⟩
  · obtain rfl := h.resolve_right hhas
    rw [chunkAt_of_key_ne (key_ne_of_not_hasChunk hhas)]
    exact ⟨_, _, rfl, rfl⟩

/-- A chunk that is neither at hand nor to be made cannot be asked for without a name. -/
theorem chunkAt_unnamed (hname : f.root.bucket = "") {index : Nat} (hnone : ¬f.HasChunk index) :
    f.chunkAt index false = .done (.error .emptyBucketName, { f with chunk := none }) := by
  rw [chunkAt_of_key_ne (key_ne_of_not_hasChunk hnone), hname]
  rfl

theorem keeps_advance (hname : f.root.bucket = name) (hf : f.Whole) (index length : Nat)
    (fresh : Bool) :
    (f.advance index length fresh).Keeps (Request.Names name) (Within name fun _ ↦ True) := by
  unfold advance
  dsimp only
  split
  · split
    · refine Keeps.bind (Object.keeps_store (by exact hname)) ?_
      rintro ⟨result, root⟩ ⟨hresult, hroot⟩
      have hwhole (chunk : Object) (hchunk : f.chunk = some chunk) : chunk.bucket = root.bucket :=
        (hf chunk hchunk).trans (hname.trans hroot.symm)
      cases result with
      | error e => exact ⟨hresult, hroot, hwhole⟩
      | ok _ => exact ⟨trivial, hroot, hwhole⟩
    · exact ⟨trivial, hname, hf⟩
  · exact ⟨trivial, hname, hf⟩

theorem keeps_write (hname : f.root.bucket = name) (hf : f.Whole) (buf : Bytes) :
    (f.write buf).Keeps (Request.Names name) (Within name fun _ ↦ True) := by
  unfold write
  split
  · exact ⟨trivial, hname, hf⟩
  · refine (keeps_chunkAt hname hf _ _).bind ?_
    rintro ⟨result, f₁⟩ ⟨hresult, hroot, hwhole⟩
    cases result with
    | error e => exact ⟨hresult, hroot, hwhole⟩
    | ok chunk =>
        have hbucket : chunk.bucket = name := hresult
        refine Keeps.bind (Object.keeps_store (by exact hbucket)) ?_
        rintro ⟨stored, chunk'⟩ ⟨hstored, hchunk⟩
        have hwhole' := whole_of_chunk (f := f₁) (hchunk.trans hroot.symm)
        cases stored with
        | error e => exact ⟨hstored, hroot, hwhole'⟩
        | ok _ =>
            refine keeps_advance (f := { f₁ with chunk := some chunk' }) ?_ hwhole' _ _ _
            exact hroot

theorem keeps_read (hname : f.root.bucket = name) (hf : f.Whole) (n : Nat) :
    (f.read n).Keeps (Request.Names name) (Within name fun _ ↦ True) := by
  unfold read
  split
  · exact ⟨trivial, hname, hf⟩
  · refine (keeps_chunkAt hname hf _ _).bind ?_
    rintro ⟨result, f₁⟩ ⟨hresult, hroot, hwhole⟩
    cases result with
    | error e => exact ⟨hresult, hroot, hwhole⟩
    | ok chunk => exact ⟨trivial, hroot, hwhole⟩

/-- A write asks for nothing but a store, unless its chunk is in the store alone. -/
theorem write_asks (hf : f.Whole) {buf : Bytes} (hbuf : buf ≠ [])
    (h : f.Fresh ∨ f.HasChunk (f.pos / f.chunkSize)) :
    ∃ q next, f.write buf = .ask q next ∧ q.bucket? = some (Utf8.encode f.root.bucket) := by
  obtain ⟨chunk, f', hchunk, hbucket⟩ := chunkAt_of_hasChunk hf (f.pos / f.chunkSize)
    (decide (f.size ≤ f.pos / f.chunkSize * f.chunkSize)) (h.imp_left decide_eq_true)
  unfold write
  rw [if_neg (mt List.isEmpty_iff.mp hbuf)]
  dsimp only
  rw [hchunk, ← hbucket]
  exact ⟨_, _, rfl, rfl⟩

theorem write_unnamed (hname : f.root.bucket = "") {buf : Bytes} (hbuf : buf ≠ [])
    (hfresh : ¬f.Fresh) (hnone : ¬f.HasChunk (f.pos / f.chunkSize)) :
    f.write buf = .done (.error .emptyBucketName, { f with chunk := none }) := by
  have hmake : decide (f.size ≤ f.pos / f.chunkSize * f.chunkSize) = false :=
    decide_eq_false hfresh
  unfold write
  rw [if_neg (mt List.isEmpty_iff.mp hbuf)]
  dsimp only
  rw [hmake, chunkAt_unnamed hname hnone]
  rfl

theorem read_unnamed (hname : f.root.bucket = "") {n : Nat} (hn : n ≠ 0) (hpos : f.pos < f.size)
    (hnone : ¬f.HasChunk (f.pos / f.chunkSize)) :
    f.read n = .done (.error .emptyBucketName, { f with chunk := none }) := by
  unfold read
  rw [if_neg (not_or.mpr ⟨hn, Nat.not_le.mpr hpos⟩)]
  dsimp only
  rw [chunkAt_unnamed hname hnone]
  rfl

theorem read_of_hasChunk (hf : f.Whole) {n : Nat}
    (h : n = 0 ∨ f.size ≤ f.pos ∨ f.HasChunk (f.pos / f.chunkSize)) :
    ∃ result, f.read n = .done result := by
  unfold read
  split
  · exact ⟨_, rfl⟩
  · rename_i hmore
    have hhas := (or_assoc.mpr h).resolve_left hmore
    obtain ⟨chunk, f', hchunk, -⟩ := chunkAt_of_hasChunk hf _ false (Or.inr hhas)
    dsimp only
    rw [hchunk]
    exact ⟨_, rfl⟩

section Create

variable {key : String} {chunkSize : Nat}

theorem create_of_valid (hkey : key ≠ "") (hsize : validChunkSize chunkSize = true)
    (bucket contentType : String) (options : Options) :
    create bucket key contentType chunkSize options =
      (newRoot bucket key contentType chunkSize options).store.bind fun
        | (.error e, _) => .refuse e
        | (.ok (), root) => .done (.ok { root, chunkSize }) :=
  if_pos (by simpa [hsize] using hkey)

theorem create_of_invalid (h : ¬(key ≠ "" ∧ validChunkSize chunkSize = true))
    (bucket contentType : String) (options : Options) :
    create bucket key contentType chunkSize options = .refuse (.notFile key) :=
  if_neg (by simpa [and_comm] using h)

end Create

theorem keeps_create (bucket key contentType : String) (chunkSize : Nat) (options : Options) :
    (create bucket key contentType chunkSize options).Keeps (Request.Names bucket)
      (Yields bucket fun f ↦ f.root.bucket = bucket ∧ f.Whole) := by
  unfold create
  split
  · have hroot : (newRoot bucket key contentType chunkSize options).bucket = bucket := rfl
    refine (Object.keeps_store hroot).bind ?_
    rintro ⟨result, root⟩ ⟨hresult, hroot⟩
    cases result with
    | error e => exact hresult
    | ok _ =>
        refine ⟨hroot, ?_⟩
        rintro _ ⟨⟩
  · rintro _ ⟨⟩

theorem keeps_openFile (bucket key : String) (options : Options) :
    (openFile bucket key options).Keeps (Request.Names bucket)
      (Yields bucket fun f ↦ f.root.bucket = bucket ∧ f.Whole) := by
  refine (Store.keeps_getFrom bucket key options).bind fun result hresult ↦ ?_
  cases result with
  | error e => exact hresult
  | ok root =>
      dsimp only
      split
      · rintro _ ⟨⟩
      · rename_i chunkSize chunkCount _
        have hwhole : ({ root, chunkSize } : ChunkedFile).Whole := by
          rintro _ ⟨⟩
        split
        · exact ⟨hresult, hwhole⟩
        · refine Keeps.bind (keeps_chunkAt (by exact hresult) hwhole _ _) ?_
          rintro ⟨result, f₁⟩ ⟨hchunk, hroot, hwhole'⟩
          cases result with
          | error e => exact hchunk
          | ok chunk => exact ⟨hroot, hwhole'⟩

end ChunkedFile
end ReplicaClient
