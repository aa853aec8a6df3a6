import Mathlib.Data.List.Dedup
import ReplicaClient.Proofs.Model.RoundTrip
import ReplicaClient.Proofs.Model.Saving
import ReplicaClient.Proofs.Object.Provenance
import ReplicaClient.Proofs.Object.ReadBack

/-!
# The targets of a relation

Adding a target to a relation compares whole links.  The link of a new target has no tag, and a link
that has been read has that of its field, so a target is known again only until the next reading.
What a relation holds, and how often, is told by the history of its additions and readings.
-/

namespace ReplicaClient

def Link.target (l : Link) : String × String :=
  (l.bucket, l.key)

theorem Link.target_retag (wire : String) (links : List Link) :
    (links.map (Link.retag wire)).map Link.target = links.map Link.target := by
  rw [List.map_map]
  rfl

namespace Relation

/-! ## Histories -/

/-- What happens to a relation.  Its document is encoded and decoded again, or saved and loaded. -/
inductive Deed where
  | add (bucket key : String)
  | recode
  | restore
  deriving DecidableEq, Repr

def Deed.isReading : Deed → Bool
  | add _ _ => false
  | recode => true
  | restore => true

section Histories

/-! Histories begin with what has happened last. -/

variable (history : List Deed) (bucket key : String)

/-- The target has been added since the last reading. -/
def Recent : Prop :=
  ∃ after before, history = after ++ .add bucket key :: before ∧ ∀ d ∈ after, d.isReading = false

/-- A reading has come after the target was added. -/
def Loaded : Prop :=
  ∃ after before, history = after ++ .add bucket key :: before ∧ ∃ d ∈ after, d.isReading = true

/-- The target has been added both before and after a reading, and since then it has not been
saved. -/
def Twice : Prop :=
  ∃ after between before,
    history = after ++ .add bucket key :: (between ++ .add bucket key :: before) ∧
      (∃ d ∈ between, d.isReading = true) ∧ .restore ∉ after

end Histories

section Histories

variable {history : List Deed} {bucket key bucket' key' : String}

@[simp] theorem not_recent_nil : ¬Recent [] bucket key := by
  rintro ⟨after, before, heq, -⟩
  cases after <;> cases heq

@[simp] theorem not_loaded_nil : ¬Loaded [] bucket key := by
  rintro ⟨after, before, heq, -⟩
  cases after <;> cases heq

@[simp] theorem not_twice_nil : ¬Twice [] bucket key := by
  rintro ⟨after, between, before, heq, -⟩
  cases after <;> cases heq

theorem recent_add : Recent (.add bucket' key' :: history) bucket key ↔
    (bucket' = bucket ∧ key' = key) ∨ Recent history bucket key := by
  constructor
  · rintro ⟨after, before, heq, hafter⟩
    cases after with
    | nil =>
        cases heq
        exact Or.inl ⟨rfl, rfl⟩
    | cons d after =>
        cases heq
        exact Or.inr ⟨after, before, rfl, fun d hd ↦ hafter d (List.mem_cons_of_mem _ hd)⟩
  · rintro (⟨rfl, rfl⟩ | ⟨after, before, rfl, hafter⟩)
    · exact ⟨[], history, rfl, nofun⟩
    · exact ⟨.add bucket' key' :: after, before, rfl, List.forall_mem_cons.mpr ⟨rfl, hafter⟩⟩

theorem not_recent_reading {d : Deed} (hd : d.isReading = true) :
    ¬Recent (d :: history) bucket key := by
  rintro ⟨after, before, heq, hafter⟩
  cases after with
  | nil =>
      cases heq
      cases hd
  | cons d' after =>
      cases heq
      cases hd.symm.trans (hafter d List.mem_cons_self)

theorem loaded_add : Loaded (.add bucket' key' :: history) bucket key ↔
    Loaded history bucket key := by
  constructor
  · rintro ⟨after, before, heq, d, hd, hreading⟩
    cases after with
    | nil => cases hd
    | cons d' after =>
        cases heq
        rcases List.mem_cons.mp hd with rfl | hd
        · cases hreading
        · exact ⟨after, before, rfl, d, hd, hreading⟩
  · rintro ⟨after, before, rfl, d, hd, hreading⟩
    exact ⟨.add bucket' key' :: after, before, rfl, d, List.mem_cons_of_mem _ hd, hreading⟩

theorem loaded_reading {d : Deed} (hd : d.isReading = true) :
    Loaded (d :: history) bucket key ↔ .add bucket key ∈ history := by
  constructor
  · rintro ⟨after, before, heq, d', hd', -⟩
    cases after with
    | nil => cases hd'
    | cons d'' after =>
        cases heq
        exact List.mem_append_right _ List.mem_cons_self
  · intro hmem
    obtain ⟨after, before, rfl⟩ := List.append_of_mem hmem
    exact ⟨d :: after, before, rfl, d, List.mem_cons_self, hd⟩

/-- A target that has been added is recent, or has been there at a reading. -/
theorem mem_iff_recent_or_loaded :
    .add bucket key ∈ history ↔ Recent history bucket key ∨ Loaded history bucket key := by
  constructor
  · intro hmem
    obtain ⟨after, before, rfl⟩ := List.append_of_mem hmem
    by_cases hreading : ∃ d ∈ after, d.isReading = true
    · exact Or.inr ⟨after, before, rfl, hreading⟩
    · push Not at hreading
      exact Or.inl ⟨after, before, rfl, fun d hd ↦ Bool.eq_false_iff.mpr (hreading d hd)⟩
  · rintro (⟨after, before, rfl, -⟩ | ⟨after, before, rfl, -⟩)
    all_goals exact List.mem_append_right _ List.mem_cons_self

theorem twice_add : Twice (.add bucket' key' :: history) bucket key ↔
    (bucket' = bucket ∧ key' = key ∧ Loaded history bucket key) ∨ Twice history bucket key := by
  constructor
  · rintro ⟨after, between, before, heq, hbetween, hafter⟩
    cases after with
    | nil =>
        cases heq
        exact Or.inl ⟨rfl, rfl, between, before, rfl, hbetween⟩
    | cons d after =>
        cases heq
        exact Or.inr ⟨after, between, before, rfl, hbetween, fun hmem ↦
          hafter (List.mem_cons_of_mem _ hmem)⟩
  · rintro (⟨rfl, rfl, between, before, rfl, hbetween⟩ | ⟨after, between, before, rfl, hbetween,
      hafter⟩)
    · exact ⟨[], between, before, rfl, hbetween, List.not_mem_nil⟩
    · refine ⟨.add bucket' key' :: after, between, before, rfl, hbetween, ?_⟩
      simpa using hafter

theorem twice_recode : Twice (.recode :: history) bucket key ↔ Twice history bucket key := by
  constructor
  · rintro ⟨after, between, before, heq, hbetween, hafter⟩
    cases after with
    | nil => cases heq
    | cons d after =>
        cases heq
        exact ⟨after, between, before, rfl, hbetween, fun hmem ↦
          hafter (List.mem_cons_of_mem _ hmem)⟩
  · rintro ⟨after, between, before, rfl, hbetween, hafter⟩
    exact ⟨.recode :: after, between, before, rfl, hbetween, by simpa using hafter⟩

theorem not_twice_restore : ¬Twice (.restore :: history) bucket key := by
  rintro ⟨after, between, before, heq, -, hafter⟩
  cases after with
  | nil => cases heq
  | cons d after =>
      cases heq
      exact hafter List.mem_cons_self

/-- A target that was there at a reading and is recent all the same has been added twice. -/
theorem twice_of_recent_of_loaded (hrecent : Recent history bucket key)
    (hloaded : Loaded history bucket key) : Twice history bucket key := by
  induction history with
  | nil => exact absurd hrecent not_recent_nil
  | cons d history ih =>
      cases d with
      | add b k =>
          rw [loaded_add] at hloaded
          rw [twice_add]
          rcases recent_add.mp hrecent with ⟨rfl, rfl⟩ | hrecent
          · exact Or.inl ⟨rfl, rfl, hloaded⟩
          · exact Or.inr (ih hrecent hloaded)
      | recode => exact absurd hrecent (not_recent_reading rfl)
      | restore => exact absurd hrecent (not_recent_reading rfl)

end Histories

/-! ## What a history leaves -/

/-- The links of a relation after a history. -/
def linksAfter (wire : String) : List Deed → List Link
  | [] => []
  | .add bucket key :: history => appendNew (linksAfter wire history) ⟨bucket, key, ""⟩
  | .recode :: history => (linksAfter wire history).map (Link.retag wire)
  | .restore :: history => ((linksAfter wire history).map (Link.retag wire)).eraseDups

/-- Links of one tag that differ have different targets. -/
theorem nodup_targets {links : List Link} {tag : String} (htag : ∀ l ∈ links, l.tag = tag)
    (h : links.Nodup) : (links.map Link.target).Nodup := by
  apply h.map_on
  rintro ⟨b, k, t⟩ hl ⟨b', k', t'⟩ hl' heq
  cases htag _ hl
  cases htag _ hl'
  cases heq
  rfl

theorem mem_retag {wire : String} {links : List Link} {bucket key : String} :
    ⟨bucket, key, wire⟩ ∈ links.map (Link.retag wire) ↔
      (bucket, key) ∈ links.map Link.target := by
  simp [Link.retag, Link.target]

theorem tag_retag {wire : String} {links : List Link} :
    ∀ l ∈ links.map (Link.retag wire), l.tag = wire := by
  intro l hl
  obtain ⟨l, -, rfl⟩ := List.mem_map.mp hl
  rfl

/-- What the links of a relation with a tag of its own have to do with its history. -/
structure Tells (wire : String) (history : List Deed) (links : List Link) : Prop where
  recent : ∀ b k, ⟨b, k, ""⟩ ∈ links ↔ Recent history b k
  loaded : ∀ b k, ⟨b, k, wire⟩ ∈ links ↔ Loaded history b k
  tags : ∀ l ∈ links, l.tag = "" ∨ l.tag = wire
  nodup : (links.map Link.target).Nodup ↔ ∀ b k, ¬Twice history b k

section Tells

variable {wire : String} {history : List Deed} {links : List Link}

theorem Tells.mem_targets (h : Tells wire history links) (b k : String) :
    (b, k) ∈ links.map Link.target ↔ .add b k ∈ history := by
  rw [mem_iff_recent_or_loaded, ← h.recent, ← h.loaded]
  constructor
  · intro hmem
    obtain ⟨⟨b, k, t⟩, hl, heq⟩ := List.mem_map.mp hmem
    cases heq
    rcases h.tags _ hl with htag | htag
    · cases htag
      exact Or.inl hl
    · cases htag
      exact Or.inr hl
  · rintro (hl | hl)
    · exact List.mem_map_of_mem hl
    · exact List.mem_map_of_mem hl

theorem tells_nil : Tells wire [] [] where
  recent b k := by simp
  loaded b k := by simp
  tags := nofun
  nodup := by simp

theorem Tells.add (hwire : wire ≠ "") (h : Tells wire history links) (bucket key : String) :
    Tells wire (.add bucket key :: history) (appendNew links ⟨bucket, key, ""⟩) := by
  refine ⟨fun b k ↦ ?_, fun b k ↦ ?_, fun l hl ↦ ?_, ?_⟩
  · rw [mem_appendNew, recent_add, h.recent, or_comm]
    simp [eq_comm]
  · rw [mem_appendNew, loaded_add, h.loaded, or_iff_left]
    rintro ⟨⟩
    exact hwire rfl
  · rcases mem_appendNew.mp hl with hl | rfl
    · exact h.tags l hl
    · exact Or.inl rfl
  · have htwice : (∀ b k, ¬Twice (.add bucket key :: history) b k) ↔
        ¬Loaded history bucket key ∧ ∀ b k, ¬Twice history b k := by
      simp only [twice_add, not_or, not_and]
      constructor
      · intro hall
        exact ⟨(hall bucket key).1 rfl rfl, fun b k ↦ (hall b k).2⟩
      · rintro ⟨hloaded, hall⟩ b k
        refine ⟨?_, hall b k⟩
        rintro rfl rfl
        exact hloaded
    rw [htwice, ← h.nodup]
    by_cases hrecent : Recent history bucket key
    · rw [appendNew_of_mem ((h.recent bucket key).mpr hrecent), iff_and_self]
      intro hnodup hloaded
      exact h.nodup.mp hnodup bucket key (twice_of_recent_of_loaded hrecent hloaded)
    · have hnew : (bucket, key) ∈ links.map Link.target ↔ Loaded history bucket key := by
        rw [h.mem_targets, mem_iff_recent_or_loaded, or_iff_right hrecent]
      rw [appendNew_of_not_mem fun hl ↦ hrecent ((h.recent bucket key).mp hl), ← hnew,
        List.map_append, List.nodup_append_comm]
      exact List.nodup_cons

/-- After a reading all links have the tag of the relation, and every target is loaded. -/
theorem Tells.reading (hwire : wire ≠ "") (h : Tells wire history links) {d : Deed}
    (hd : d.isReading = true) {links' : List Link}
    (hmem : ∀ l, l ∈ links' ↔ l ∈ links.map (Link.retag wire))
    (hnodup : (links'.map Link.target).Nodup ↔ ∀ b k, ¬Twice (d :: history) b k) :
    Tells wire (d :: history) links' where
  recent b k := by
    refine iff_of_false ?_ (not_recent_reading hd)
    rw [hmem]
    intro hl
    exact hwire (tag_retag _ hl).symm
  loaded b k := by
    rw [hmem, mem_retag, h.mem_targets, loaded_reading hd]
  tags l hl := Or.inr (tag_retag l ((hmem l).mp hl))
  nodup := hnodup

theorem tells_linksAfter (hwire : wire ≠ "") (history : List Deed) :
    Tells wire history (linksAfter wire history) := by
  induction history with
  | nil => exact tells_nil
  | cons d history ih =>
      cases d with
      | add bucket key => exact ih.add hwire bucket key
      | recode =>
          apply ih.reading hwire rfl fun _ ↦ Iff.rfl
          rw [Link.target_retag, ih.nodup]
          simp only [twice_recode]
      | restore =>
          apply ih.reading hwire rfl fun _ ↦ List.mem_eraseDups
          refine iff_of_true ?_ fun b k ↦ not_twice_restore
          have htag := @tag_retag wire (linksAfter wire history)
          exact nodup_targets (fun l hl ↦ htag l (List.mem_eraseDups.mp hl)) (nodup_eraseDups _)

end Tells

/-- Where a relation has no tag, a link that has been read is as good as a new one. -/
theorem linksAfter_untagged (history : List Deed) :
    (∀ l ∈ linksAfter "" history, l.tag = "") ∧ (linksAfter "" history).Nodup ∧
      ∀ b k, ⟨b, k, ""⟩ ∈ linksAfter "" history ↔ .add b k ∈ history := by
  induction history with
  | nil => exact ⟨nofun, .nil, fun b k ↦ by simp [linksAfter]⟩
  | cons d history ih =>
      obtain ⟨htag, hnodup, hmem⟩ := ih
      have hretag : (linksAfter "" history).map (Link.retag "") = linksAfter "" history := by
        have hsame : ∀ l ∈ linksAfter "" history, Link.retag "" l = l := by
          rintro ⟨b, k, t⟩ hl
          cases htag _ hl
          rfl
        exact (List.map_congr_left hsame).trans (List.map_id _)
      have hread (d : Deed) (hd : d.isReading = true) (b k : String) :
          ⟨b, k, ""⟩ ∈ linksAfter "" history ↔ .add b k ∈ d :: history := by
        rw [hmem, List.mem_cons, or_iff_right]
        rintro rfl
        cases hd
      cases d with
      | add bucket key =>
          refine ⟨fun l hl ↦ ?_, nodup_appendNew hnodup _, fun b k ↦ ?_⟩
          · rcases mem_appendNew.mp hl with hl | rfl
            · exact htag l hl
            · rfl
          · rw [linksAfter, mem_appendNew, hmem, List.mem_cons, or_comm]
            simp
      | recode =>
          rw [linksAfter, hretag]
          exact ⟨htag, hnodup, hread _ rfl⟩
      | restore =>
          rw [linksAfter, hretag, eraseDups_of_nodup hnodup]
          exact ⟨htag, hnodup, hread _ rfl⟩

/-! ## All histories -/

section After

variable (wire : String) (history : List Deed)

theorem mem_targets_linksAfter (b k : String) :
    (b, k) ∈ (linksAfter wire history).map Link.target ↔ .add b k ∈ history := by
  by_cases hwire : wire = ""
  · obtain ⟨htag, -, hmem⟩ := linksAfter_untagged history
    rw [hwire, ← hmem]
    constructor
    · intro hin
      obtain ⟨⟨b, k, t⟩, hl, heq⟩ := List.mem_map.mp hin
      cases heq
      cases htag _ hl
      exact hl
    · exact List.mem_map_of_mem
  · exact (tells_linksAfter hwire history).mem_targets b k

/-- The targets are distinct unless one has been added on both sides of a reading. -/
theorem nodup_targets_linksAfter : ((linksAfter wire history).map Link.target).Nodup ↔
    wire = "" ∨ ∀ b k, ¬Twice history b k := by
  by_cases hwire : wire = ""
  · obtain ⟨htag, hnodup, -⟩ := linksAfter_untagged history
    rw [hwire]
    exact iff_of_true (nodup_targets htag hnodup) (Or.inl rfl)
  · rw [or_iff_right hwire]
    exact (tells_linksAfter hwire history).nodup

/-- A target that is related already is known again until the next reading. -/
theorem mem_linksAfter {b k : String} (hadded : .add b k ∈ history) :
    ⟨b, k, ""⟩ ∈ linksAfter wire history ↔ wire = "" ∨ Recent history b k := by
  by_cases hwire : wire = ""
  · obtain ⟨-, -, hmem⟩ := linksAfter_untagged history
    rw [hwire, hmem]
    exact iff_of_true hadded (Or.inl rfl)
  · rw [or_iff_right hwire]
    exact (tells_linksAfter hwire history).recent b k

end After

/-! ## Histories of documents -/

end Relation

namespace Document

variable {D : Type} [Document D] {f g : FieldDescriptor} {links : List Link}
  {acc acc' : D × List (String × Json)}

theorem decodeField_keeps (hlaw : Lawful D) (hf : f ∈ fields D) (hg : g ∈ fields D)
    (hne : g.name ≠ f.name) (h : decodeField links acc f = .ok acc') :
    readField acc'.1 g.name = readField acc.1 g.name := by
  unfold decodeField at h
  cases hcontent : fieldContent acc.2 links f with
  | mk value body =>
      simp only [hcontent] at h
      cases value with
      | none =>
          cases h
          rfl
      | some v =>
          cases hwrite : writeField acc.1 f.name v with
          | error e =>
              simp only [hwrite] at h
              cases h
          | ok doc =>
              simp only [hwrite] at h
              cases h
              exact hlaw.keeps acc.1 f hf v doc hwrite g hg hne

/-- A relation to many takes the links of its tag, in their order. -/
theorem decodeField_many (hlaw : Lawful D) (hf : f ∈ fields D) (hkind : f.kind = .many)
    (h : decodeField links acc f = .ok acc') :
    readField acc'.1 f.name = .ok (some (.many (links.filter (·.tag = f.wire)))) := by
  have hcontent : fieldContent acc.2 links f =
      (some (.many (links.filter (·.tag = f.wire))), acc.2) := by
    rw [fieldContent, hkind]
  have htakes : Takes D f (.many (links.filter (·.tag = f.wire))) :=
    ⟨hkind.symm, fun hscalar ↦ by rw [hkind] at hscalar; cases hscalar⟩
  obtain ⟨doc, hwrite, hread⟩ := hlaw.writes acc.1 f hf _ htakes
  unfold decodeField at h
  simp only [hcontent, hwrite] at h
  cases h
  exact hread

theorem foldlM_decodeField_keeps (hlaw : Lawful D) {fs : List FieldDescriptor}
    (hfs : ∀ f ∈ fs, f ∈ fields D) (hg : g ∈ fields D) (hne : g.name ∉ fs.map (·.name))
    (h : fs.foldlM (decodeField links) acc = .ok acc') :
    readField acc'.1 g.name = readField acc.1 g.name := by
  induction fs generalizing acc with
  | nil =>
      cases h
      rfl
  | cons f fs ih =>
      obtain ⟨hf, hfs⟩ := List.forall_mem_cons.mp hfs
      rw [List.map_cons, List.mem_cons, not_or] at hne
      rw [List.foldlM_cons] at h
      cases hstep : decodeField links acc f with
      | error e =>
          rw [hstep] at h
          cases h
      | ok acc₁ =>
          rw [hstep] at h
          rw [ih hfs hne.2 h, decodeField_keeps hlaw hf hg hne.1 hstep]

theorem foldlM_decodeField_many (hlaw : Lawful D) {fs : List FieldDescriptor}
    (hfs : ∀ f ∈ fs, f ∈ fields D) (hnames : (fs.map (·.name)).Nodup) (hf : f ∈ fs)
    (hkind : f.kind = .many) (h : fs.foldlM (decodeField links) acc = .ok acc') :
    readField acc'.1 f.name = .ok (some (.many (links.filter (·.tag = f.wire)))) := by
  induction fs generalizing acc with
  | nil => cases hf
  | cons g fs ih =>
      obtain ⟨hg, hbehind⟩ := List.forall_mem_cons.mp hfs
      obtain ⟨hname, hnames⟩ := List.nodup_cons.mp hnames
      rw [List.foldlM_cons] at h
      cases hstep : decodeField links acc g with
      | error e =>
          rw [hstep] at h
          cases h
      | ok acc₁ =>
          rw [hstep] at h
          rcases List.mem_cons.mp hf with rfl | hf
          · rw [foldlM_decodeField_keeps hlaw hbehind hg hname h]
            exact decodeField_many hlaw hg hkind hstep
          · exact ih hbehind hnames hf h

/-- What decoding makes of a relation to many. -/
theorem readField_decode_many (hlaw : Lawful D) (hf : f ∈ fields D) (hkind : f.kind = .many)
    {data : Bytes} {doc : D} (h : decode D data links = .ok doc) :
    readField doc f.name = .ok (some (.many (links.filter (·.tag = f.wire)))) := by
  unfold decode at h
  split at h
  · cases h
  · rename_i body _
    cases hfold : (fields D).foldlM (decodeField links) ((default : D), body) with
    | error e =>
        rw [hfold] at h
        cases h
    | ok acc =>
        rw [hfold] at h
        cases h
        exact foldlM_decodeField_many hlaw (fun _ hg ↦ hg) hlaw.names hf hkind hfold
  · cases h

theorem tag_mem_of_encode (hlaw : Lawful D) {doc : D} {data : Bytes}
    (h : encode doc = .ok (data, links)) : ∀ l ∈ links, l.tag ∈ Model.relationTags D := by
  have hkinds : ∀ f ∈ fields D, ∀ v, readField doc f.name = .ok (some v) → v.kind = f.kind := by
    intro f hf v hread
    obtain ⟨w, hread', hkind⟩ := hlaw.reads doc f hf
    cases hread.symm.trans hread'
    exact hkind
  obtain ⟨-, -, rfl⟩ := encode_eq_ok.mp h
  rw [taggedLinks_fields hkinds]
  exact fun l hl ↦ tag_mem_of_mem_taggedLinks hl

/-- What encoding makes of a relation to many, behind anything that has other tags. -/
theorem filter_encode_many (hlaw : Lawful D) (hf : f ∈ fields D) {doc : D} {ls : List Link}
    (hread : readField doc f.name = .ok (some (.many ls))) {data : Bytes}
    (h : encode doc = .ok (data, links)) :
    links.filter (·.tag = f.wire) = ls.map (Link.retag f.wire) := by
  obtain ⟨-, -, rfl⟩ := encode_eq_ok.mp h
  rw [filter_taggedLinks hlaw.wires hf, targets, hread]
  rfl

end Document

namespace Relation

variable {D : Type} [Mergeable D]

/-- The second model is what is loaded where the content is that which saving the first has sent. -/
def Restored (m m' : Model D) : Prop :=
  ∃ (q : PutRequest)
    (asked : Except ClientError PutReply → Dialogue (Except ClientError Unit × Model D))
    (bucket key : String) (options : Options) (q' : GetRequest) (reply : GetReply)
    (next : Except ClientError GetReply → Dialogue (Except ClientError (Model D))) (c : Content),
    m.save = .ask (.put q) asked ∧
      Model.load D bucket key options = .ask (.get q') next ∧
      reply.contents = [c] ∧ c.value = q.content.value ∧ c.links = q.content.links ∧
      next (.ok reply) = .done (.ok m')

/-- What a save sends. -/
theorem put_of_save {m : Model D} {q : PutRequest}
    {asked : Except ClientError PutReply → Dialogue (Except ClientError Unit × Model D)}
    (h : m.save = .ask (.put q) asked) : ∃ body links, Document.encode m.doc = .ok (body, links) ∧
      q = (Model.withDocument m.object (Model.relationTags D) body links).putRequest := by
  unfold Model.save at h
  cases hencode : Document.encode m.doc with
  | error e =>
      simp only [hencode] at h
      cases h
  | ok encoded =>
      obtain ⟨body, links⟩ := encoded
      simp only [hencode] at h
      rw [Object.store_bind] at h
      cases h
      exact ⟨body, links, rfl, rfl⟩

/-- A model is made of a single content by decoding it. -/
theorem ofObject_setContent (o : Object) (c : Content) :
    Model.ofObject (D := D) (o.setContent [c]) =
      (Document.decode D c.value (c.links.map Link.ofWire)).map fun doc ↦
        ⟨o.setContent [c], doc⟩ :=
  rfl

theorem decode_of_load {bucket key : String} {options : Options} {q : GetRequest}
    {reply : GetReply} {c : Content} {m : Model D}
    {next : Except ClientError GetReply → Dialogue (Except ClientError (Model D))}
    (h : Model.load D bucket key options = .ask (.get q) next)
    (hcontents : reply.contents = [c]) (hnext : next (.ok reply) = .done (.ok m)) :
    Document.decode D c.value (c.links.map Link.ofWire) = .ok m.doc := by
  unfold Model.load Store.getFrom Store.bucketHandle at h
  by_cases hbucket : bucket.isEmpty = true
  · rw [if_pos hbucket] at h
    cases h
  · rw [if_neg hbucket] at h
    cases h
    have hmade : ∃ o : Object, Model.ofObject (o.setContent [c]) = .ok m := by
      change Dialogue.bind (.done (Object.afterFetch _ reply)) _ = _ at hnext
      rw [Object.afterFetch, hcontents] at hnext
      exact ⟨_, Dialogue.done.inj hnext⟩
    obtain ⟨o, hmade⟩ := hmade
    rw [ofObject_setContent] at hmade
    cases hdecode : Document.decode D c.value (c.links.map Link.ofWire) with
    | error e =>
        rw [hdecode] at hmade
        cases hmade
    | ok doc =>
        rw [hdecode] at hmade
        cases hmade
        rfl

/-- Between a save and a load equal links become one. -/
theorem readField_of_restored (hlaw : Document.Lawful D) {f : FieldDescriptor}
    (hf : f ∈ Document.fields D) (hkind : f.kind = .many) {m m' : Model D} {links : List Link}
    (hread : Document.readField m.doc f.name = .ok (some (.many links))) (h : Restored m m') :
    Document.readField m'.doc f.name =
      .ok (some (.many (links.map (Link.retag f.wire)).eraseDups)) := by
  obtain ⟨q, asked, bucket, key, options, q', reply, next, c, hsave, hload, hcontents, -,
    hlinks, hnext⟩ := h
  obtain ⟨body, tagged, hencode, rfl⟩ := put_of_save hsave
  have hrelation : f ∈ Document.relations D := by
    simp [Document.relations, hf, hkind]
  have htag : f.wire ∈ Model.relationTags D := List.mem_map_of_mem hrelation
  have hsent : c.links.map Link.ofWire =
      Model.rewritten m.object.links (Model.relationTags D) tagged := by
    rw [hlinks, Model.putRequest_withDocument (Document.tag_mem_of_encode hlaw hencode)]
    exact Function.LeftInverse.list_map Link.ofWire_toWire _
  have hkept : (m.object.links.filter (·.tag ∉ Model.relationTags D)).filter (·.tag = f.wire) =
      [] := by
    apply List.filter_eq_nil_iff.mpr
    intro l hl hwire
    have hnot := of_decide_eq_true (List.mem_filter.mp hl).2
    rw [of_decide_eq_true hwire] at hnot
    exact hnot htag
  have hdecode := decode_of_load hload hcontents hnext
  rw [Document.readField_decode_many hlaw hf hkind hdecode, hsent, Model.rewritten,
    List.filter_append, hkept, filter_eraseDups,
    Document.filter_encode_many hlaw hf hread hencode, List.nil_append]

/-- What is encoded and can be decoded again can be saved and loaded. -/
theorem restored_of_decode {m : Model D} {body : Bytes} {links : List Link} {doc : D}
    (hencode : Document.encode m.doc = .ok (body, links))
    (hdecode : Document.decode D body
      (Model.withDocument m.object (Model.relationTags D) body links).links = .ok doc) :
    ∃ m', Restored m m' ∧ m'.doc = doc := by
  let saved := Model.withDocument m.object (Model.relationTags D) body links
  let blank : Object := { bucket := "b", key := "k" }
  have hsave : m.save = .ask (.put saved.putRequest) fun reply ↦
      .done ((saved.answered reply).1, { m with object := (saved.answered reply).2 }) := by
    rw [Model.save, hencode]
    exact Object.store_bind _ _
  have hlinks : (saved.links.map Link.toWire).map Link.ofWire = saved.links :=
    Function.LeftInverse.list_map Link.ofWire_toWire saved.links
  have hmade : Model.ofObject (blank.setContent [saved.toContent]) =
      .ok ⟨blank.setContent [saved.toContent], doc⟩ := by
    rw [ofObject_setContent]
    change (Document.decode D body ((saved.links.map Link.toWire).map Link.ofWire)).map _ = _
    rw [hlinks, hdecode]
    rfl
  refine ⟨⟨blank.setContent [saved.toContent], doc⟩, ?_, rfl⟩
  refine ⟨_, _, "b", "k", {}, _, { contents := [saved.toContent] }, _, saved.toContent, hsave, rfl,
    rfl, rfl, rfl, ?_⟩
  exact congrArg Dialogue.done hmade

/-- A document of which only edits, additions and readings are known, as far as they concern one
field. -/
inductive Followed (f : FieldDescriptor) : List Deed → D → Prop where
  | empty {doc : D} (h : Document.readField doc f.name = .ok (some (.many []))) :
      Followed f [] doc
  | edit {history : List Deed} {doc doc' : D} (before : Followed f history doc)
      (h : Document.readField doc' f.name = Document.readField doc f.name) :
      Followed f history doc'
  | add {history : List Deed} {doc doc' : D} {links links' : List Link} {E : Type}
      {target : Model E} (before : Followed f history doc)
      (hread : Document.readField doc f.name = .ok (some (.many links)))
      (hadd : Relation.add links target = .ok links')
      (hread' : Document.readField doc' f.name = .ok (some (.many links'))) :
      Followed f (.add target.object.bucket target.key :: history) doc'
  | recode {history : List Deed} {doc doc' : D} {data : Bytes} {links : List Link}
      (before : Followed f history doc) (hencode : Document.encode doc = .ok (data, links))
      (hdecode : Document.decode D data links = .ok doc') : Followed f (.recode :: history) doc'
  | restore {history : List Deed} {m m' : Model D} (before : Followed f history m.doc)
      (h : Restored m m') : Followed f (.restore :: history) m'.doc

section Followed

variable {f : FieldDescriptor} {history : List Deed} {doc : D}

/-- An addition takes a target with a key and no link twice. -/
theorem add_eq_ok {E : Type} {links links' : List Link} {target : Model E} :
    Relation.add links target = .ok links' ↔
      target.key ≠ "" ∧ links' = appendNew links ⟨target.object.bucket, target.key, ""⟩ := by
  unfold Relation.add Model.linkTarget
  by_cases hkey : target.key.isEmpty = true
  · rw [if_pos hkey]
    refine iff_of_false nofun fun h ↦ h.1 (String.isEmpty_iff.mp hkey)
  · rw [if_neg hkey]
    have hne : target.key ≠ "" := fun h ↦ hkey (String.isEmpty_iff.mpr h)
    rw [and_iff_right hne]
    exact ⟨fun h ↦ (Except.ok.inj h).symm, fun h ↦ congrArg Except.ok h.symm⟩

/-- A relation is what its history has left. -/
theorem Followed.readField (hlaw : Document.Lawful D) (hf : f ∈ Document.fields D)
    (hkind : f.kind = .many) (h : Followed f history doc) :
    Document.readField doc f.name = .ok (some (.many (linksAfter f.wire history))) := by
  induction h with
  | empty h => exact h
  | edit _ h ih => rw [h, ih]
  | add _ hread hadd hread' ih =>
      rw [hread] at ih
      cases ih
      rw [hread', (add_eq_ok.mp hadd).2]
      rfl
  | recode _ hencode hdecode ih =>
      rw [Document.readField_decode_many hlaw hf hkind hdecode,
        Document.filter_encode_many hlaw hf ih hencode]
      rfl
  | restore _ h ih => exact readField_of_restored hlaw hf hkind ih h

theorem Followed.key_ne (h : Followed f history doc) {b k : String} (hadd : .add b k ∈ history) :
    k ≠ "" := by
  induction h with
  | empty h => cases hadd
  | edit _ h ih => exact ih hadd
  | add _ _ hadded _ ih =>
      rcases List.mem_cons.mp hadd with heq | hadd
      · cases heq
        exact (add_eq_ok.mp hadded).1
      · exact ih hadd
  | recode _ _ _ ih => exact ih ((List.mem_cons.mp hadd).resolve_left nofun)
  | restore _ _ ih => exact ih ((List.mem_cons.mp hadd).resolve_left nofun)

end Followed

/-! ## Loading what is related -/

section Loading

variable {σ : Type} {answer : (q : Request) → σ → Except ClientError q.Reply × σ}

/-- The place of a model. -/
def placeOf {E : Type} (m : Model E) : String × String :=
  (m.object.bucket, m.object.key)

theorem place_of_mark_eq {E : Type} {o : Object} {m : Model E} (h : m.object.mark = o.mark) :
    placeOf m = (o.bucket, o.key) :=
  Prod.ext (Object.bucket_of_mark_eq h) (Object.key_of_mark_eq h)

theorem place_of_fetch {bucket key : String} {bucketType : Option String} {options : Options}
    {s s' : σ} {o : Object}
    (h : (Object.fetch bucket bucketType key options).run answer s = (.ok o, s')) :
    (o.bucket, o.key) = (bucket, key) := by
  unfold Object.fetch at h
  have hrun := Dialogue.run_query answer
    ({ bucket, bucketType, key, options } : Object).fetchRequest s
    ({ bucket, bucketType, key, options } : Object).afterFetch
  obtain ⟨hok, -⟩ := Prod.mk.inj (hrun.symm.trans h)
  generalize (answer _ s).1 = outcome at hok
  cases outcome with
  | error e => cases hok
  | ok reply =>
      change Object.afterFetch _ reply = .ok o at hok
      unfold Object.afterFetch at hok
      split at hok
      · cases hok
      · cases hok
        unfold Object.setContent
        split <;> rfl

theorem place_of_load {E : Type} [Mergeable E] {bucket key : String} {options : Options} {s s' : σ}
    {m : Model E} (h : (Model.load E bucket key options).run answer s = (.ok m, s')) :
    placeOf m = (bucket, key) := by
  unfold Model.load Store.getFrom Store.bucketHandle Dialogue.andThen at h
  by_cases hbucket : bucket.isEmpty = true
  · rw [if_pos hbucket] at h
    cases h
  · rw [if_neg hbucket, Dialogue.run_bind] at h
    dsimp only [Bucket.get] at h
    cases hfetch : (Object.fetch bucket none key options).run answer s with
    | mk fetched s₁ =>
        rw [hfetch] at h
        cases fetched with
        | error e => cases h
        | ok o =>
            obtain ⟨hmodel, -⟩ := Prod.mk.inj h
            rw [place_of_mark_eq (Model.mark_ofObject hmodel), place_of_fetch hfetch]

/-- Every link is loaded, as often as it is there. -/
theorem places_of_loadAll {E : Type} [Mergeable E] {links : List Link} {s s' : σ}
    {ms : List (Model E)} (h : (Relation.loadAll E links).run answer s = (.ok ms, s')) :
    ms.map placeOf = links.map Link.target := by
  induction links generalizing s ms with
  | nil =>
      cases h
      rfl
  | cons l links ih =>
      unfold Relation.loadAll Dialogue.andThen at h
      rw [Dialogue.run_bind] at h
      cases hfirst : (Model.load E l.bucket l.key {}).run answer s with
      | mk first s₁ =>
          rw [hfirst] at h
          cases first with
          | error e => cases h
          | ok m =>
              dsimp only at h
              rw [Dialogue.run_bind] at h
              cases hrest : (Relation.loadAll E links).run answer s₁ with
              | mk rest s₂ =>
                  rw [hrest] at h
                  cases rest with
                  | error e => cases h
                  | ok ms' =>
                      cases h
                      rw [List.map_cons, List.map_cons, ih hrest, place_of_load hfirst]
                      rfl

end Loading

/-! ## How often a target is related -/

theorem length_dedup_iff {α : Type} [DecidableEq α] {l : List α} :
    l.length = l.dedup.length ↔ l.Nodup := by
  constructor
  · intro h
    rw [← List.dedup_eq_self]
    exact (List.dedup_sublist l).eq_of_length h.symm
  · intro h
    rw [List.dedup_eq_self.mpr h]

/-- Whatever additions and readings have made of a relation, it relates the targets that have been
added.  Each is related once, counted once and loaded once, unless one of them has been added on
both sides of a reading and has not been saved since: adding a target again changes nothing only if
it has been added since the last reading. -/
theorem related_once_iff (hlaw : Document.Lawful D) {f : FieldDescriptor}
    (hf : f ∈ Document.fields D) (hkind : f.kind = .many) {history : List Deed} {doc : D}
    (h : Followed f history doc) :
    ∃ links, Document.readField doc f.name = .ok (some (.many links)) ∧
      (∀ b k, (b, k) ∈ links.map Link.target ↔ .add b k ∈ history) ∧
      ((links.map Link.target).Nodup ↔ f.wire = "" ∨ ∀ b k, ¬Twice history b k) ∧
      (links.length = (links.map Link.target).dedup.length ↔
        f.wire = "" ∨ ∀ b k, ¬Twice history b k) ∧
      (∀ (E : Type) (target : Model E), .add target.object.bucket target.key ∈ history →
        (Relation.add links target = .ok links ↔
          f.wire = "" ∨ Recent history target.object.bucket target.key)) ∧
      ∀ (E σ : Type) [Mergeable E] (answer : (q : Request) → σ → Except ClientError q.Reply × σ)
        (s s' : σ) (ms : List (Model E)), (Relation.loadAll E links).run answer s = (.ok ms, s') →
          ms.map placeOf = links.map Link.target := by
  have hnodup := nodup_targets_linksAfter f.wire history
  refine ⟨_, h.readField hlaw hf hkind, mem_targets_linksAfter f.wire history, hnodup, ?_, ?_, ?_⟩
  · rw [← hnodup, ← length_dedup_iff, List.length_map]
  · intro E target hadded
    rw [add_eq_ok, and_iff_right (h.key_ne hadded), ← mem_linksAfter f.wire history hadded]
    constructor
    · intro heq
      rw [heq]
      exact mem_appendNew.mpr (Or.inr rfl)
    · intro hmem
      exact (appendNew_of_mem hmem).symm
  · intro E σ _ answer s s' ms hload
    exact places_of_loadAll hload

instance : Mergeable Card where
  toDocument := inferInstance

/-- A peer that is added, saved, loaded and added again is related twice. -/
theorem related_once_iff_card : ∃ c : Card,
    Followed ⟨"peers", .many, none⟩ [.add "b" "p", .restore, .add "b" "p"] c ∧
      ∃ links, Document.readField c "peers" = .ok (some (.many links)) ∧
        ¬(links.map Link.target).Nodup := by
  let f : FieldDescriptor := ⟨"peers", .many, none⟩
  let c : Card := { peers := [⟨"b", "p", ""⟩] }
  let c' : Card := { peers := [⟨"b", "p", "peers"⟩, ⟨"b", "p", ""⟩] }
  let target : Model Unit := ⟨{ bucket := "b", key := "p" }, ()⟩
  have hf : f ∈ Document.fields Card := Document.mem_fields_card.mpr (Or.inr (Or.inr rfl))
  have htarget : Relation.add [] target = .ok [⟨"b", "p", ""⟩] := rfl
  have hempty : Followed f [] ({} : Card) := .empty rfl
  have hfirst : Followed f [.add "b" "p"] c := .add hempty rfl htarget rfl
  have hplain : ∀ g ∈ Document.fields Card, ∀ j,
      Document.readField c g.name = .ok (some (.scalar j)) → j.Plain 0 := by
    intro g hg j hread
    rcases Document.mem_fields_card.mp hg with rfl | rfl | rfl
    · cases hread
      exact .string 0 ""
    · cases hread
    · cases hread
  obtain ⟨data, links, _, hencode, hdecode, hback, -⟩ :=
    Document.decode_encoded Document.lawful_card c (by decide : 0 < Json.maxDepth) hplain
  obtain ⟨m, hrestored, rfl⟩ := restored_of_decode (m := ⟨{ bucket := "b", key := "k" }, c⟩) hencode
    (by rw [(Document.encode_eq_ok.mp hencode).2.2] at hdecode ⊢; exact hdecode)
  have hloaded : Document.readField m.doc "peers" = .ok (some (.many [⟨"b", "p", "peers"⟩])) :=
    hback f hf (.many c.peers) rfl
  have hagain : Relation.add [⟨"b", "p", "peers"⟩] target = .ok c'.peers := rfl
  have hfollowed : Followed f [.add "b" "p", .restore, .add "b" "p"] c' :=
    .add (.restore hfirst hrestored) hloaded hagain rfl
  obtain ⟨links, hread, -, hnodup, -⟩ :=
    related_once_iff Document.lawful_card hf rfl hfollowed
  refine ⟨c', hfollowed, links, hread, fun hdistinct ↦ ?_⟩
  rcases hnodup.mp hdistinct with hwire | hnever
  · exact absurd hwire (by decide)
  · exact hnever "b" "p" ⟨[], [.restore], [], rfl, ⟨.restore, List.mem_cons_self, rfl⟩,
      List.not_mem_nil⟩

end Relation
end ReplicaClient
