import EdgeLink.KnowledgeIndex
import EdgeLink.Machine

namespace EdgeLink.KnowledgeIndex
open PyText (Str)
open SignedInputs

structure Assistant (E : Type*) where
  proc : Process
  tree : Tree
  index : IndexFile E

inductive Event (E : Type*)
  | edit (t : Tree)
  | restart (p : Process)
  | lost
  | broken
  | cut
  | noObject
  /-- An earlier version has written the index. -/
  | older (payload : Payload E)
  /-- A call of `ensure_index`, during which the tree becomes `later`; nobody touches the index
  file between its reading for the status and its reading for the answer. -/
  | ensure (now : ℕ) (later : Tree)

section Run
variable {E : Type*} (embed : Process → Str → E) (gateway_root : Path)

def loadIndex : IndexFile E → Option (Payload E)
  | .saved payload => some payload
  | .missing | .invalid | .undecodable | .noObject => none

def ensureIndex (s : Assistant E) (now : ℕ) (later : Tree) : Option (Payload E) :=
  (indexStatus gateway_root s.proc s.tree s.index).bind fun reason =>
    if reason ≠ .fresh then buildIndexPayload embed gateway_root s.proc now s.tree later
    else loadIndex s.index

/-- Where an error is raised, the index file stays. -/
def saveIndex (index : IndexFile E) : Option (Payload E) → IndexFile E
  | some payload => .saved payload
  | none => index

def step (s : Assistant E) : Event E → Assistant E × Option (Payload E)
  | .edit t => ({ s with tree := t }, none)
  | .restart p => ({ s with proc := p }, none)
  | .lost => ({ s with index := .missing }, none)
  | .broken => ({ s with index := .invalid }, none)
  | .cut => ({ s with index := .undecodable }, none)
  | .noObject => ({ s with index := .noObject }, none)
  | .older payload => ({ s with index := .saved { payload with schema_version := 1 } }, none)
  | .ensure now later =>
    let payload := ensureIndex embed gateway_root s now later
    (⟨s.proc, later, saveIndex s.index payload⟩, payload)

def Event.trees : Event E → List Tree
  | .edit t => [t]
  | .ensure _ later => [later]
  | _ => []

/-- No source is edited while the index is built. -/
def Undisturbed (s : Assistant E) : Event E → Prop
  | .ensure _ later =>
    indexStatus gateway_root s.proc s.tree s.index = none ∨
      indexStatus gateway_root s.proc s.tree s.index = some .fresh ∨
        sourceFiles gateway_root later = sourceFiles gateway_root s.tree
  | _ => True

instance (s : Assistant E) : DecidablePred (Undisturbed gateway_root s)
  | .ensure _ _ => inferInstanceAs (Decidable (_ ∨ _))
  | .edit _ => isTrue trivial
  | .restart _ => isTrue trivial
  | .lost => isTrue trivial
  | .broken => isTrue trivial
  | .cut => isTrue trivial
  | .noObject => isTrue trivial
  | .older _ => isTrue trivial

end Run

section Sources
variable (gateway_root : Path)

/-- The root that a source lies below. -/
def rank (path : Path) : ℕ := if (readme gateway_root).isPrefixOf path then 0 else 1

def before (a b : Path) : Prop :=
  rank gateway_root a < rank gateway_root b ∨
    (rank gateway_root a = rank gateway_root b ∧ parts a ≤ parts b)

theorem parts_inj {a b : Path} (h : parts a = parts b) : a = b := by
  have hjoin (p : Path) : ['/'].intercalate (parts p) = p := List.intercalate_splitOn '/'
  rw [← hjoin a, ← hjoin b, h]

theorem before_antisymm (a b : Path) (hab : before gateway_root a b) (hba : before gateway_root b a) :
    a = b := by
  rcases hab with hab | ⟨hrank, hab⟩ <;> rcases hba with hba | ⟨hrank', hba⟩
  · omega
  · omega
  · omega
  · exact parts_inj (le_antisymm hab hba)

theorem rank_readme {path : Path} (h : readme gateway_root <+: path) : rank gateway_root path = 0 :=
  if_pos (List.isPrefixOf_iff_prefix.mpr h)

theorem rank_docs {path : Path} (h : docs gateway_root <+: path) : rank gateway_root path = 1 := by
  refine if_neg fun hreadme => ?_
  have hlen : (docs gateway_root).length ≤ (readme gateway_root).length := by
    unfold docs readme
    rw [List.length_append, List.length_append]
    exact Nat.add_le_add_left (Nat.le_of_ble_eq_true rfl) _
  have hprefix := List.prefix_of_prefix_length_le h (List.isPrefixOf_iff_prefix.mp hreadme) hlen
  exact absurd ((List.prefix_append_right_inj _).mp hprefix) (by decide)

variable {gateway_root} {t : Tree} {root : Path}

theorem root_of_isDocument {path : Path} (h : isDocument root path = true) : root <+: path :=
  (List.prefix_append _ _).trans (List.isPrefixOf_iff_prefix.mp (Bool.and_eq_true_iff.mp h).1)

theorem mem_discoverDocuments {x : Path × File} :
    x ∈ discoverDocuments t root ↔ x ∈ t.files ∧ isDocument root x.1 = true := by
  unfold discoverDocuments
  rw [List.mem_insertionSort, List.mem_filter]

theorem rootFiles_spec (t : Tree) (root : Path) :
    ((rootFiles t root).map Prod.fst).Nodup ∧
      ((rootFiles t root).Pairwise fun x y => parts x.1 ≤ parts y.1) ∧
      ∀ x ∈ rootFiles t root, root <+: x.1 ∧ t.lookup x.1 = some x.2 := by
  unfold rootFiles
  cases hfile : t.lookup root with
  | some file =>
    refine ⟨List.nodup_singleton _, List.pairwise_singleton _ _, fun x hx => ?_⟩
    obtain rfl := List.mem_singleton.mp hx
    exact ⟨List.prefix_refl _, hfile⟩
  | none =>
    refine ⟨?_, ?_, fun x hx => ?_⟩
    · have hperm := (List.perm_insertionSort (fun x y : Path × File => parts x.1 ≤ parts y.1)
        (t.files.filter fun x => isDocument root x.1)).map Prod.fst
      exact hperm.nodup_iff.mpr (t.nodup.sublist (List.filter_sublist.map _))
    · have : Std.Total (fun x y : Path × File => parts x.1 ≤ parts y.1) := ⟨fun x y => le_total _ _⟩
      have : IsTrans (Path × File) (fun x y => parts x.1 ≤ parts y.1) := ⟨fun x y z => le_trans⟩
      exact List.pairwise_insertionSort _ _
    · obtain ⟨hmem, hdoc⟩ := mem_discoverDocuments.mp hx
      exact ⟨root_of_isDocument hdoc, lookup_of_mem t.nodup hmem⟩

theorem sourceFiles_eq (t : Tree) : sourceFiles gateway_root t =
    rootFiles t (readme gateway_root) ++ rootFiles t (docs gateway_root) := by
  unfold sourceFiles getIndexRoots
  rw [List.flatMap_cons, List.flatMap_singleton]

theorem mem_sourceFiles {x : Path × File} (h : x ∈ sourceFiles gateway_root t) :
    t.lookup x.1 = some x.2 := by
  rw [sourceFiles_eq] at h
  rcases List.mem_append.mp h with h | h
  · exact ((rootFiles_spec t _).2.2 x h).2
  · exact ((rootFiles_spec t _).2.2 x h).2

theorem sourceFiles_listed (t : Tree) :
    Listed (before gateway_root) (sourceFiles gateway_root t) := by
  obtain ⟨hnames, hsorted, hreadme⟩ := rootFiles_spec t (readme gateway_root)
  obtain ⟨hnames', hsorted', hdocs⟩ := rootFiles_spec t (docs gateway_root)
  rw [sourceFiles_eq]
  have hfirst : ∀ x ∈ rootFiles t (readme gateway_root), rank gateway_root x.1 = 0 :=
    fun x hx => rank_readme gateway_root (hreadme x hx).1
  have hsecond : ∀ x ∈ rootFiles t (docs gateway_root), rank gateway_root x.1 = 1 :=
    fun x hx => rank_docs gateway_root (hdocs x hx).1
  constructor
  · rw [List.map_append]
    refine List.nodup_append.mpr ⟨hnames, hnames', fun a ha b hb hab => ?_⟩
    obtain ⟨x, hx, rfl⟩ := List.mem_map.mp ha
    obtain ⟨y, hy, rfl⟩ := List.mem_map.mp hb
    have := hfirst x hx
    have := hsecond y hy
    rw [hab] at *
    omega
  · refine List.pairwise_append.mpr ⟨?_, ?_, fun x hx y hy => ?_⟩
    · exact hsorted.imp_of_mem fun hx hy h => Or.inr ⟨by rw [hfirst _ hx, hfirst _ hy], h⟩
    · exact hsorted'.imp_of_mem fun hx hy h => Or.inr ⟨by rw [hsecond _ hx, hsecond _ hy], h⟩
    · refine Or.inl ?_
      rw [hfirst x hx, hsecond y hy]
      exact Nat.zero_lt_one

/-- In the tree it was read from, every source has its signature. -/
theorem buildSourceManifest_self (t : Tree) :
    buildSourceManifest t ((sourceFiles gateway_root t).map Prod.fst) =
      some (signed signature (sourceFiles gateway_root t)) := by
  have hlookup : ∀ x ∈ sourceFiles gateway_root t, t.lookup x.1 = some x.2 :=
    fun x hx => mem_sourceFiles hx
  unfold buildSourceManifest
  generalize sourceFiles gateway_root t = sources at hlookup ⊢
  induction sources with
  | nil => rfl
  | cons x sources ih =>
    obtain ⟨hx, hsources⟩ := List.forall_mem_cons.mp hlookup
    rw [List.map_cons, List.mapM_cons, hx, ih hsources]
    rfl

end Sources

section Fresh
variable {E : Type*} {gateway_root : Path} {p : Process} {t : Tree} {payload : Payload E}

theorem inspectSources_fresh {stored current : List (Path × ℕ × ℕ)} :
    inspectSources stored current = .fresh ↔
      ∀ x ∈ current, stored.reverse.lookup x.1 = some x.2 := by
  induction current with
  | nil => simp [inspectSources]
  | cons x current ih =>
    obtain ⟨path, sig⟩ := x
    rw [inspectSources, List.forall_mem_cons]
    dsimp only
    cases stored.reverse.lookup path with
    | none => simp
    | some sig' =>
      dsimp only
      by_cases hsig : sig' = sig
      · rw [if_neg (not_not_intro hsig), ih, hsig]
        simp
      · rw [if_pos hsig]
        simp [hsig]

theorem inspect_fresh : inspectIndexFreshness gateway_root p t payload = .fresh ↔
    INDEX_SCHEMA_VERSION ≤ payload.schema_version ∧ payload.backend = p.backend ∧
      Matches payload.source_manifest (signed signature (sourceFiles gateway_root t)) := by
  unfold inspectIndexFreshness Matches
  dsimp only
  by_cases hschema : payload.schema_version < INDEX_SCHEMA_VERSION
  · rw [if_pos hschema]
    simp [Nat.not_le.mpr hschema]
  by_cases hbackend : payload.backend = p.backend
  · by_cases hlen : payload.source_manifest.length =
        (signed signature (sourceFiles gateway_root t)).length
    · rw [if_neg hschema, if_neg (not_not_intro hbackend), if_neg (not_not_intro hlen),
        inspectSources_fresh]
      exact ⟨fun h => ⟨Nat.not_lt.mp hschema, hbackend, hlen, h⟩, fun h => h.2.2.2⟩
    · rw [if_neg hschema, if_neg (not_not_intro hbackend), if_pos hlen]
      simp [hlen]
  · rw [if_neg hschema, if_pos hbackend]
    simp [hbackend]

end Fresh

section Runs
variable {E : Type*} (embed : Process → Str → E) (gateway_root : Path)

/-- What a build of these sources gives. -/
def fullPayload (p : Process) (now : ℕ) (sources : List (Path × File)) : Payload E :=
  payloadOf embed p now sources (signed signature sources)

/-- It was built from versions of the files, with their own signatures. -/
def Built (versions : Set (Path × File)) (payload : Payload E) : Prop :=
  ∃ p now sources, Listed (before gateway_root) sources ∧ (∀ x ∈ sources, x ∈ versions) ∧
    payload = fullPayload embed p now sources

structure Kept (versions : Set (Path × File)) (s : Assistant E) : Prop where
  tree : ∀ x ∈ sourceFiles gateway_root s.tree, x ∈ versions
  index : ∀ payload, s.index = .saved payload →
    payload.schema_version < INDEX_SCHEMA_VERSION ∨ Built embed gateway_root versions payload

/-- The trees that come up hold these versions. -/
def Shows (versions : Set (Path × File)) (e : Event E) : Prop :=
  ∀ t ∈ e.trees, ∀ x ∈ sourceFiles gateway_root t, x ∈ versions

variable {embed gateway_root} {versions : Set (Path × File)} {s : Assistant E}

theorem buildIndexPayload_quiet {p : Process} {now : ℕ} {t later : Tree}
    (hquiet : sourceFiles gateway_root later = sourceFiles gateway_root t) :
    buildIndexPayload embed gateway_root p now t later =
      some (fullPayload embed p now (sourceFiles gateway_root t)) := by
  unfold buildIndexPayload
  rw [← hquiet]
  dsimp only
  rw [buildSourceManifest_self]
  rfl

theorem indexStatus_none {p : Process} {t : Tree} {index : IndexFile E} :
    indexStatus gateway_root p t index = none ↔ ¬ index.Readable := by
  cases index <;> simp [indexStatus, IndexFile.Readable]

/-- A fresh index file holds an index of this version. -/
theorem saved_of_fresh {p : Process} {t : Tree} {index : IndexFile E}
    (hfresh : indexStatus gateway_root p t index = some .fresh) :
    ∃ payload, index = .saved payload ∧ inspectIndexFreshness gateway_root p t payload = .fresh := by
  cases index with
  | missing => cases hfresh
  | invalid => cases hfresh
  | undecodable => cases hfresh
  | noObject => cases hfresh
  | saved payload => exact ⟨payload, rfl, Option.some.inj hfresh⟩

theorem saved_of_load {index : IndexFile E} {payload : Payload E}
    (h : loadIndex index = some payload) : index = .saved payload := by
  cases index with
  | missing => cases h
  | invalid => cases h
  | undecodable => cases h
  | noObject => cases h
  | saved stored => rw [Option.some.inj h]

/-- A fresh index was built from the sources as they are. -/
theorem Kept.fresh (h : Kept embed gateway_root versions s) (hdet : Determined signature versions)
    (hfresh : indexStatus gateway_root s.proc s.tree s.index = some .fresh) :
    ∃ p now, p.backend = s.proc.backend ∧
      loadIndex s.index = some (fullPayload embed p now (sourceFiles gateway_root s.tree)) := by
  obtain ⟨payload, hindex, hfresh⟩ := saved_of_fresh hfresh
  obtain ⟨hschema, hbackend, hmatches⟩ := inspect_fresh.mp hfresh
  rcases h.index payload hindex with hold | ⟨p, now, sources, hlisted, hin, rfl⟩
  · omega
  · have hcurrent : Listed (before gateway_root) (sourceFiles gateway_root s.tree) :=
      sourceFiles_listed s.tree
    have hsigned : signed signature sources =
        signed signature (sourceFiles gateway_root s.tree) :=
      hmatches.eq hlisted.signed hcurrent.signed (before_antisymm gateway_root)
    rw [← eq_of_signed hdet hin h.tree hsigned, hindex]
    exact ⟨p, now, hbackend, rfl⟩

theorem ensureIndex_raises {now : ℕ} {later : Tree} (hread : ¬ s.index.Readable) :
    ensureIndex embed gateway_root s now later = none := by
  unfold ensureIndex
  rw [indexStatus_none.mpr hread]
  rfl

theorem Kept.ensure (h : Kept embed gateway_root versions s) (hdet : Determined signature versions)
    {now : ℕ} {later : Tree} (hquiet : Undisturbed gateway_root s (.ensure now later))
    (hread : s.index.Readable) :
    ∃ p now', p.backend = s.proc.backend ∧ ensureIndex embed gateway_root s now later =
      some (fullPayload embed p now' (sourceFiles gateway_root s.tree)) := by
  unfold ensureIndex
  cases hstatus : indexStatus gateway_root s.proc s.tree s.index with
  | none => exact absurd hread (indexStatus_none.mp hstatus)
  | some reason =>
    rw [Option.bind_some]
    by_cases hfresh : reason = .fresh
    · rw [if_neg (not_not_intro hfresh)]
      exact h.fresh hdet (hfresh ▸ hstatus)
    · rw [if_pos hfresh]
      refine ⟨s.proc, now, rfl, buildIndexPayload_quiet ?_⟩
      rcases hquiet with hnone | hsome | hquiet
      · exact absurd (hstatus.symm.trans hnone) (Option.some_ne_none _)
      · exact absurd (Option.some.inj (hstatus.symm.trans hsome)) hfresh
      · exact hquiet

theorem Kept.step (h : Kept embed gateway_root versions s) (hdet : Determined signature versions)
    {e : Event E} (hquiet : Undisturbed gateway_root s e) (hshows : Shows gateway_root versions e) :
    Kept embed gateway_root versions (step embed gateway_root s e).1 := by
  cases e with
  | edit t => exact ⟨hshows t (List.mem_singleton_self t), h.index⟩
  | restart p => exact ⟨h.tree, h.index⟩
  | lost => exact ⟨h.tree, fun payload hp => by cases hp⟩
  | broken => exact ⟨h.tree, fun payload hp => by cases hp⟩
  | cut => exact ⟨h.tree, fun payload hp => by cases hp⟩
  | noObject => exact ⟨h.tree, fun payload hp => by cases hp⟩
  | older payload =>
    refine ⟨h.tree, fun payload' hp => Or.inl ?_⟩
    obtain rfl := IndexFile.saved.inj hp
    exact Nat.one_lt_two
  | ensure now later =>
    refine ⟨hshows later (List.mem_singleton_self later), fun payload hp => ?_⟩
    have hsaved : saveIndex s.index (ensureIndex embed gateway_root s now later) =
        .saved payload := hp
    by_cases hread : s.index.Readable
    · obtain ⟨p, now', -, hpayload⟩ := h.ensure hdet hquiet hread
      rw [hpayload] at hsaved
      obtain rfl := IndexFile.saved.inj hsaved
      exact Or.inr ⟨p, now', _, sourceFiles_listed s.tree, h.tree, rfl⟩
    · rw [ensureIndex_raises hread] at hsaved
      exact h.index payload hsaved

/-- If no source is edited while the index is built, and two versions of a source of one time and
one size are the same, then `ensure_index` answers at any time what a build of the sources as they
are would give in a process of the same backend; it builds only if the stored index is none of these.
On an index file whose reading raises an error it answers nothing, and the file stays. -/
theorem index_coherent (hdet : Determined signature versions) {p : Process} {t : Tree}
    (ht : ∀ x ∈ sourceFiles gateway_root t, x ∈ versions) {es : List (Event E)}
    (hshows : ∀ e ∈ es, Shows gateway_root versions e)
    (hquiet : Machine.Always (step embed gateway_root) (Undisturbed gateway_root)
      ⟨p, t, .missing⟩ es) :
    let s := Machine.run (step embed gateway_root) ⟨p, t, .missing⟩ es
    (indexStatus gateway_root s.proc s.tree s.index = some .fresh ↔
        ∃ p' now', p'.backend = s.proc.backend ∧
          loadIndex s.index = some (fullPayload embed p' now' (sourceFiles gateway_root s.tree))) ∧
      ∀ now later, Undisturbed gateway_root s (.ensure now later) →
        (s.index.Readable → ∃ p' now', p'.backend = s.proc.backend ∧
          (step embed gateway_root s (.ensure now later)).2 =
            some (fullPayload embed p' now' (sourceFiles gateway_root s.tree))) ∧
        (¬ s.index.Readable → (step embed gateway_root s (.ensure now later)).2 = none ∧
          (step embed gateway_root s (.ensure now later)).1.index = s.index) := by
  intro s
  have hkept : Kept embed gateway_root versions s := by
    refine Machine.run_invariant (C := fun s e => Undisturbed gateway_root s e ∧
      Shows gateway_root versions e) (fun s e hs hC => hs.step hdet hC.1 hC.2) ?_
      (hquiet.and (Machine.Always.of_forall _ (fun e he _ => hshows e he) _))
    exact ⟨ht, fun payload hp => by cases hp⟩
  refine ⟨⟨hkept.fresh hdet, ?_⟩, fun now later hq => ⟨hkept.ensure hdet hq, fun hread => ?_⟩⟩
  · rintro ⟨p', now', hbackend, hload⟩
    rw [saved_of_load hload]
    exact congrArg some
      (inspect_fresh.mpr ⟨le_rfl, hbackend, matches_self (sourceFiles_listed s.tree).signed.names⟩)
  · have hnone : ensureIndex embed gateway_root s now later = none := ensureIndex_raises hread
    exact ⟨hnone, congrArg (saveIndex s.index) hnone⟩

end Runs

section Answers
variable {E : Type*} (embed : Process → Str → E) (gateway_root : Path)

def SoundIndex (s : Assistant E) : Prop :=
  ∀ payload, s.index = .saved payload →
    payload.schema_version < INDEX_SCHEMA_VERSION ∨ SoundPayload embed payload

variable {embed gateway_root} {s : Assistant E}

theorem buildIndexPayload_sound {p : Process} {now : ℕ} {t later : Tree} {payload : Payload E}
    (h : buildIndexPayload embed gateway_root p now t later = some payload) :
    SoundPayload embed payload := by
  obtain ⟨manifest, -, rfl⟩ := Option.map_eq_some_iff.mp h
  have hlisted : Listed (before gateway_root) (sourceFiles gateway_root t) := sourceFiles_listed t
  exact payloadOf_sound p now hlisted.names manifest

theorem SoundIndex.ensure (h : SoundIndex embed s) {now : ℕ} {later : Tree} {payload : Payload E}
    (hpayload : ensureIndex embed gateway_root s now later = some payload) :
    SoundPayload embed payload := by
  obtain ⟨reason, hstatus, hanswer⟩ := Option.bind_eq_some_iff.mp hpayload
  split_ifs at hanswer with hfresh
  · exact buildIndexPayload_sound hanswer
  · obtain ⟨stored, hindex, hstored⟩ := saved_of_fresh (hstatus.trans (congrArg some (not_not.mp hfresh)))
    rw [hindex] at hanswer
    obtain rfl := Option.some.inj hanswer
    exact (h stored hindex).resolve_left (Nat.not_lt.mpr (inspect_fresh.mp hstored).1)

theorem SoundIndex.step (h : SoundIndex embed s) (e : Event E) :
    SoundIndex embed (step embed gateway_root s e).1 := by
  cases e with
  | edit t => exact h
  | restart p => exact h
  | lost => exact fun payload hp => by cases hp
  | broken => exact fun payload hp => by cases hp
  | cut => exact fun payload hp => by cases hp
  | noObject => exact fun payload hp => by cases hp
  | older payload =>
    intro payload' hp
    obtain rfl := IndexFile.saved.inj hp
    exact Or.inl Nat.one_lt_two
  | ensure now later =>
    intro payload hp
    have hsaved : saveIndex s.index (ensureIndex embed gateway_root s now later) =
        .saved payload := hp
    cases hensure : ensureIndex embed gateway_root s now later with
    | none =>
      rw [hensure] at hsaved
      exact h payload hsaved
    | some answered =>
      rw [hensure] at hsaved
      obtain rfl := IndexFile.saved.inj hsaved
      exact Or.inr (h.ensure hensure)

theorem SoundIndex.run (p : Process) (t : Tree) (es : List (Event E)) :
    SoundIndex embed (Machine.run (KnowledgeIndex.step embed gateway_root) ⟨p, t, .missing⟩ es) :=
  Machine.run_keeps (fun _ e hs => hs.step e) (fun payload hp => by cases hp) es

/-- Whatever happens to the files while an index is built, and whether the index file is lost, damaged
until it is no JSON object or written by an earlier version, what `ensure_index` answers is well
formed: the ids of the chunks differ, and the frequency of a token is the number of chunks that it
occurs in. -/
theorem answers_sound (p : Process) (t : Tree) (es : List (Event E)) {e : Event E}
    {payload : Payload E}
    (h : (step embed gateway_root
      (Machine.run (step embed gateway_root) ⟨p, t, .missing⟩ es) e).2 = some payload) :
    SoundPayload embed payload := by
  cases e with
  | edit t => cases h
  | restart p => cases h
  | lost => cases h
  | broken => cases h
  | cut => cases h
  | noObject => cases h
  | older payload => cases h
  | ensure now later => exact (SoundIndex.run p t es).ensure h

end Answers

def sampleRoot : Path := ['g']

def guide : Path × File := (docs sampleRoot ++ "/a.md".toList, ⟨1, 3, "# c".toList⟩)

def readmeOld : Path × File := (readme sampleRoot, ⟨1, 5, "# a b".toList⟩)

def readmeNew : Path × File := (readme sampleRoot, ⟨2, 6, "# a bc".toList⟩)

theorem sampleTree_nodup (file : File) :
    ([guide, (readme sampleRoot, file)].map Prod.fst).Nodup := by
  show [guide.1, readme sampleRoot].Nodup
  decide +kernel

def sampleTree (file : File) : Tree := ⟨[guide, (readme sampleRoot, file)], sampleTree_nodup file⟩

def sampleRun : List (Event Unit) :=
  [.ensure 1 (sampleTree readmeOld.2), .edit (sampleTree readmeNew.2), .restart ⟨.hashingFallback, 2⟩,
    .ensure 2 (sampleTree readmeNew.2), .cut, .ensure 3 (sampleTree readmeNew.2), .broken]

def sampleVersions : List (Path × File) := [guide, readmeOld, readmeNew]

def sampleStart : Assistant Unit := ⟨⟨.hashingFallback, 1⟩, sampleTree readmeOld.2, .missing⟩

def sampleEnd : Assistant Unit := Machine.run (step (fun _ _ => ()) sampleRoot) sampleStart sampleRun

theorem index_coherent_readme : ∃ p now, p.backend = sampleEnd.proc.backend ∧
    (step (fun _ _ => ()) sampleRoot sampleEnd (.ensure 4 (sampleTree readmeNew.2))).2 =
      some (fullPayload (fun _ _ => ()) p now (sourceFiles sampleRoot sampleEnd.tree)) := by
  have hversions : ∀ x ∈ sampleVersions, ∀ y ∈ sampleVersions, x.1 = y.1 →
      signature x.2 = signature y.2 → x = y := by decide +kernel
  have hdet : Determined signature {x | x ∈ sampleVersions} := hversions
  have ht : ∀ x ∈ sourceFiles sampleRoot (sampleTree readmeOld.2), x ∈ sampleVersions := by
    decide +kernel
  have hshows : ∀ e ∈ sampleRun, ∀ t ∈ e.trees, ∀ x ∈ sourceFiles sampleRoot t,
      x ∈ sampleVersions := by decide +kernel
  have hquiet : Machine.Always (step (fun _ _ => ()) sampleRoot) (Undisturbed sampleRoot)
      sampleStart sampleRun := by decide +kernel
  exact ((index_coherent hdet ht hshows hquiet).2 4 _ (Or.inr (Or.inr rfl))).1 trivial

theorem answers_sound_readme :
    SoundPayload (fun _ _ => ()) (fullPayload (fun _ _ => ()) ⟨.hashingFallback, 1⟩ 1
      (sourceFiles sampleRoot (sampleTree readmeOld.2))) := by
  have hbuilt : (step (fun _ _ => ()) sampleRoot
      (Machine.run (step (fun _ _ => ()) sampleRoot) sampleStart [])
      (.ensure 1 (sampleTree readmeOld.2))).2 = some (fullPayload (fun _ _ => ())
        ⟨.hashingFallback, 1⟩ 1 (sourceFiles sampleRoot (sampleTree readmeOld.2))) :=
    @buildIndexPayload_quiet Unit (fun _ _ => ()) sampleRoot ⟨.hashingFallback, 1⟩ 1
      (sampleTree readmeOld.2) _ rfl
  exact answers_sound _ _ [] hbuilt

-- an edit between the reading of the texts and the manifest goes unnoticed
example :
    let s := (step (fun _ _ => ()) sampleRoot sampleStart (.ensure 1 (sampleTree readmeNew.2))).1
    s.tree = sampleTree readmeNew.2 ∧ indexStatus sampleRoot s.proc s.tree s.index = some .fresh :=
  ⟨rfl, by decide +kernel⟩

end EdgeLink.KnowledgeIndex
