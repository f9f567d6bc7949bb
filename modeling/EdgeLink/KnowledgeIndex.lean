import EdgeLink.Counter
import EdgeLink.RecordCodec
import EdgeLink.SignedInputs
import EdgeLink.TextSplitter

namespace EdgeLink.KnowledgeIndex
open Counter
open Gateway (decimal isDigit_decimal)
open PyText (Str lower)
open TextSplitter (ChunkItem splitMarkdownSections)
open SignedInputs

inductive Kind
  | ascii
  | cjk
  deriving DecidableEq

/-- The two classes of `TOKEN_RE`. -/
def kind (c : Char) : Option Kind :=
  let n := c.toNat
  if c.isAlphanum ∨ c = '_' ∨ c = '/' ∨ c = '-' ∨ c = '.' then some .ascii
  else if 0x4E00 ≤ n ∧ n ≤ 0x9FFF then some .cjk
  else none

/-- `TOKEN_RE.findall`; `run` is the match that the last character belongs to. -/
def findall (run : Option (Kind × Str)) : Str → List (Kind × Str)
  | [] => run.toList
  | c :: text =>
    match kind c, run with
    | none, run => run.toList ++ findall none text
    | some k, none => findall (some (k, [c])) text
    | some k, some (k', token) =>
      if k = k' then findall (some (k, token ++ [c])) text
      else (k', token) :: findall (some (k, [c])) text

def bigrams : Str → List Str
  | a :: b :: token => [a, b] :: bigrams (b :: token)
  | _ => []

def pairs : Str → List Str
  | a :: b :: token => [a, b] :: pairs token
  | _ => []

def isHex (c : Char) : Bool := ('0' ≤ c && c ≤ '9') || ('a' ≤ c && c ≤ 'f')

def tokensOf : Kind × Str → List Str
  | (.cjk, token) => if token.length = 1 then [token] else bigrams token ++ [token]
  | (.ascii, token) =>
    token :: if token.all isHex ∧ 4 ≤ token.length ∧ token.length % 2 = 0 then pairs token else []

def tokenize (text : Str) : List Str := (findall none (lower text)).flatMap tokensOf

/-- The whole text of a path. -/
abbrev Path := Str

/-- A regular file, as `stat` and `read_text` show it. -/
structure File where
  /-- in microseconds -/
  mtime : ℕ
  size : ℕ
  text : Str
  deriving DecidableEq

structure Tree where
  files : List (Path × File)
  nodup : (files.map Prod.fst).Nodup

def Tree.lookup (t : Tree) (path : Path) : Option File := t.files.lookup path

/-- Paths are compared part by part. -/
def parts (path : Path) : List Str := path.splitOn '/'

def name (path : Path) : Str := (parts path).getLastD []

def suffix (path : Path) : Str :=
  let ext := ((name path).reverse.takeWhile (· ≠ '.')).reverse
  if '.' ∈ name path ∧ ext ≠ [] ∧ ext.length + 1 < (name path).length then '.' :: ext else []

section
variable (gateway_root : Path)

def readme : Path := gateway_root ++ "/README.md".toList

def docs : Path := gateway_root ++ "/docs".toList

def getIndexRoots : List Path := [readme gateway_root, docs gateway_root]

def isDocument (root path : Path) : Bool :=
  (root ++ ['/']).isPrefixOf path && (lower (suffix path) = ".md".toList || lower (suffix path) = ".txt".toList)

def discoverDocuments (t : Tree) (root : Path) : List (Path × File) :=
  (t.files.filter fun x => isDocument root x.1).insertionSort fun x y => parts x.1 ≤ parts y.1

/-- The files of a root, which may be a file itself. -/
def rootFiles (t : Tree) (root : Path) : List (Path × File) :=
  match t.lookup root with
  | some file => [(root, file)]
  | none => discoverDocuments t root

/-- `discover_index_source_paths`, with the files. -/
def sourceFiles (t : Tree) : List (Path × File) := (getIndexRoots gateway_root).flatMap (rootFiles t)

end

structure IndexedChunk (E : Type*) where
  chunk_id : Str
  source_path : Path
  source_type : Str
  source_name : Str
  section_title : Str
  section_index : ℕ
  chunk_index : ℕ
  start_offset : ℕ
  end_offset : ℕ
  chunk_text : Str
  embedding : E
  token_counts : List (Str × ℕ)
  token_total : ℕ

inductive Backend
  | sentenceTransformers
  | hashingFallback
  deriving DecidableEq

/-- A process of the assistant; the seed of `hash` is drawn when it starts. -/
structure Process where
  backend : Backend
  seed : ℕ
  deriving DecidableEq

def INDEX_SCHEMA_VERSION : ℕ := 2

def signature (file : File) : ℕ × ℕ := (file.mtime, file.size)

structure Payload (E : Type*) where
  schema_version : ℕ
  created_at : ℕ
  backend : Backend
  total_chunks : ℕ
  doc_count : ℕ
  source_count : ℕ
  source_manifest : List (Path × ℕ × ℕ)
  doc_freq : List (Str × ℕ)
  chunks : List (IndexedChunk E)

section
variable {E : Type*} (embed : Process → Str → E) (gateway_root : Path)

def indexChunk (p : Process) (path : Path) (item : ChunkItem) (idx : ℕ) : Option (IndexedChunk E) :=
  let tokens := tokenize item.chunk_text
  if tokens = [] then none
  else some
    { chunk_id := path ++ ':' :: decimal idx
      source_path := path
      source_type :=
        let type := (lower (suffix path)).dropWhile (· = '.')
        if type = [] then "text".toList else type
      source_name := name path
      section_title := item.section_title
      section_index := item.section_index
      chunk_index := idx
      start_offset := item.start_offset
      end_offset := item.end_offset
      chunk_text := item.chunk_text
      embedding := embed p item.chunk_text
      token_counts := counter tokens
      token_total := tokens.length }

def indexFile (p : Process) (x : Path × File) : List (IndexedChunk E) :=
  (splitMarkdownSections 500 50 x.2.text).zipIdx.filterMap fun item =>
    indexChunk embed p x.1 item.1 item.2

/-- The chunks in which a token occurs. -/
def docFreq (chunks : List (IndexedChunk E)) : List (Str × ℕ) :=
  counter (chunks.flatMap fun chunk => chunk.token_counts.map Prod.fst)

/-- The payload for the files that were read, with the manifest that was made after that. -/
def payloadOf (p : Process) (now : ℕ) (sources : List (Path × File))
    (manifest : List (Path × ℕ × ℕ)) : Payload E :=
  let chunks := sources.flatMap (indexFile embed p)
  { schema_version := INDEX_SCHEMA_VERSION
    created_at := now
    backend := p.backend
    total_chunks := chunks.length
    doc_count := chunks.length
    source_count := sources.length
    source_manifest := manifest
    doc_freq := docFreq chunks
    chunks := chunks }

/-- A path that is gone raises an error. -/
def buildSourceManifest (t : Tree) (paths : List Path) : Option (List (Path × ℕ × ℕ)) :=
  paths.mapM fun path => (t.lookup path).map fun file => (path, signature file)

/-- The texts are read from `t`, and the manifest is made when the tree is `later`. -/
def buildIndexPayload (p : Process) (now : ℕ) (t later : Tree) : Option (Payload E) :=
  let sources := sourceFiles gateway_root t
  (buildSourceManifest later (sources.map Prod.fst)).map (payloadOf embed p now sources)

end

inductive Reason
  | missing
  | invalidJson
  | schemaOutdated
  | backendChanged
  | sourceCountChanged
  | sourceAddedOrRemoved
  | sourceModified
  | fresh
  deriving DecidableEq

/-- The index file. -/
inductive IndexFile (E : Type*)
  | missing
  | invalid
  /-- The bytes are no UTF-8 text, as in a file cut inside a character. -/
  | undecodable
  /-- The text is JSON, but no object. -/
  | noObject
  | saved (payload : Payload E)

/-- Reading the others raises an error that nobody catches. -/
def IndexFile.Readable {E : Type*} : IndexFile E → Prop
  | .undecodable | .noObject => False
  | .missing | .invalid | .saved _ => True

section
variable {E : Type*} (gateway_root : Path)

/-- The loop over the current manifest. -/
def inspectSources (stored : List (Path × ℕ × ℕ)) : List (Path × ℕ × ℕ) → Reason
  | [] => .fresh
  | (path, sig) :: current =>
    match stored.reverse.lookup path with
    | none => .sourceAddedOrRemoved
    | some sig' => if sig' ≠ sig then .sourceModified else inspectSources stored current

def inspectIndexFreshness (p : Process) (t : Tree) (payload : Payload E) : Reason :=
  if payload.schema_version < INDEX_SCHEMA_VERSION then .schemaOutdated
  else if payload.backend ≠ p.backend then .backendChanged
  else
    let current := signed signature (sourceFiles gateway_root t)
    if payload.source_manifest.length ≠ current.length then .sourceCountChanged
    else inspectSources payload.source_manifest current

/-- Only `JSONDecodeError` is caught: `read_text` raises another one for bytes that are no text, and
`payload.get` for what is no object. -/
def indexStatus (p : Process) (t : Tree) : IndexFile E → Option Reason
  | .missing => some .missing
  | .invalid => some .invalidJson
  | .undecodable | .noObject => none
  | .saved payload => some (inspectIndexFreshness gateway_root p t payload)

end

structure SoundChunk {E : Type*} (embed : Process → Str → E) (p : Process)
    (chunk : IndexedChunk E) : Prop where
  id : chunk.chunk_id = chunk.source_path ++ ':' :: decimal chunk.chunk_index
  tokens : tokenize chunk.chunk_text ≠ []
  counts : chunk.token_counts = counter (tokenize chunk.chunk_text)
  total : chunk.token_total = (tokenize chunk.chunk_text).length
  embedding : chunk.embedding = embed p chunk.chunk_text

structure SoundPayload {E : Type*} (embed : Process → Str → E) (payload : Payload E) : Prop where
  schema : payload.schema_version = INDEX_SCHEMA_VERSION
  totals : payload.total_chunks = payload.chunks.length ∧ payload.doc_count = payload.chunks.length
  ids : (payload.chunks.map IndexedChunk.chunk_id).Nodup
  chunks : ∃ p : Process, p.backend = payload.backend ∧ ∀ chunk ∈ payload.chunks, SoundChunk embed p chunk
  keys : (payload.doc_freq.map Prod.fst).Nodup
  freq : ∀ t n, (t, n) ∈ payload.doc_freq ↔
    0 < n ∧ n = payload.chunks.countP fun chunk => (tokenize chunk.chunk_text).contains t

section Sound
variable {E : Type*} {embed : Process → Str → E} {p : Process} {path : Path} {item : ChunkItem}
  {idx : ℕ} {chunk : IndexedChunk E} {x : Path × File}

theorem append_cons_inj {a : Char} {s s' d d' : Str} (hd : a ∉ d) (hd' : a ∉ d')
    (h : s ++ a :: d = s' ++ a :: d') : s = s' ∧ d = d' := by
  rcases List.append_eq_append_iff.mp h with ⟨r, hs, hr⟩ | ⟨r, hs, hr⟩
  · cases r with
    | nil => exact ⟨(hs.trans (List.append_nil _)).symm, (List.cons_inj_right a).mp hr⟩
    | cons b r =>
      have htail := (List.cons_eq_cons.mp hr).2
      exact absurd (htail ▸ List.mem_append_right r List.mem_cons_self) hd
  · cases r with
    | nil => exact ⟨hs.trans (List.append_nil _), ((List.cons_inj_right a).mp hr).symm⟩
    | cons b r =>
      have htail := (List.cons_eq_cons.mp hr).2
      exact absurd (htail ▸ List.mem_append_right r List.mem_cons_self) hd'

theorem colon_decimal (n : ℕ) : ':' ∉ decimal n := by
  intro h
  exact absurd (isDigit_decimal h) (by decide)

theorem decimal_inj {n m : ℕ} (h : decimal n = decimal m) : n = m := by
  rw [← Nat.ofDigitChars_ten_toDigits (n := n), ← Nat.ofDigitChars_ten_toDigits (n := m)]
  exact congrArg (Nat.ofDigitChars 10 · 0) h

/-- The id of a chunk tells its file and its place there. -/
theorem chunkId_inj {path path' : Path} {n m : ℕ}
    (h : path ++ ':' :: decimal n = path' ++ ':' :: decimal m) : path = path' ∧ n = m := by
  obtain ⟨hpath, hn⟩ := append_cons_inj (colon_decimal n) (colon_decimal m) h
  exact ⟨hpath, decimal_inj hn⟩

theorem indexChunk_sound (h : indexChunk embed p path item idx = some chunk) :
    SoundChunk embed p chunk ∧ chunk.source_path = path ∧ chunk.chunk_index = idx := by
  unfold indexChunk at h
  dsimp only at h
  by_cases htokens : tokenize item.chunk_text = []
  · rw [if_pos htokens] at h
    cases h
  · rw [if_neg htokens] at h
    obtain rfl := Option.some.inj h
    exact ⟨⟨rfl, htokens, rfl, rfl, rfl⟩, rfl, rfl⟩

theorem indexFile_sound (h : chunk ∈ indexFile embed p x) :
    SoundChunk embed p chunk ∧ chunk.source_path = x.1 := by
  obtain ⟨item, -, hitem⟩ := List.mem_filterMap.mp h
  obtain ⟨hsound, hpath, -⟩ := indexChunk_sound hitem
  exact ⟨hsound, hpath⟩

theorem indexFile_ids (x : Path × File) :
    ((indexFile embed p x).map IndexedChunk.chunk_id).Nodup := by
  have hplaces : (splitMarkdownSections 500 50 x.2.text).zipIdx.Pairwise fun a b => a.2 < b.2 := by
    rw [← List.pairwise_map (f := Prod.snd), List.zipIdx_map_snd]
    exact List.pairwise_lt_range'
  refine List.pairwise_map.mpr (List.pairwise_filterMap.mpr (hplaces.imp ?_))
  intro a b hab chunk hchunk chunk' hchunk' hid
  obtain ⟨hsound, hpath, hidx⟩ := indexChunk_sound hchunk
  obtain ⟨hsound', hpath', hidx'⟩ := indexChunk_sound hchunk'
  rw [hsound.id, hsound'.id] at hid
  have := (chunkId_inj hid).2
  omega

theorem chunks_ids {sources : List (Path × File)} (hnames : (sources.map Prod.fst).Nodup) :
    ((sources.flatMap (indexFile embed p)).map IndexedChunk.chunk_id).Nodup := by
  rw [List.map_flatMap]
  refine List.nodup_flatMap.mpr ⟨fun x _ => indexFile_ids x, ?_⟩
  refine (List.pairwise_map.mp hnames).imp fun {x y} hxy => ?_
  intro id hid hid'
  obtain ⟨chunk, hchunk, rfl⟩ := List.mem_map.mp hid
  obtain ⟨chunk', hchunk', heq⟩ := List.mem_map.mp hid'
  obtain ⟨hsound, hpath⟩ := indexFile_sound hchunk
  obtain ⟨hsound', hpath'⟩ := indexFile_sound hchunk'
  rw [hsound.id, hsound'.id] at heq
  exact hxy (hpath ▸ hpath' ▸ (chunkId_inj heq).1.symm)

theorem mem_docFreq {chunks : List (IndexedChunk E)} (h : ∀ chunk ∈ chunks, SoundChunk embed p chunk)
    {t : Str} {n : ℕ} : (t, n) ∈ docFreq chunks ↔
      0 < n ∧ n = chunks.countP fun chunk => (tokenize chunk.chunk_text).contains t := by
  have hkeys : ∀ chunk ∈ chunks, chunk.token_counts.map Prod.fst =
      (tokenize chunk.chunk_text).eraseDups := by
    intro chunk hchunk
    rw [(h chunk hchunk).counts, counter_keys]
  have hcount : (chunks.flatMap fun chunk => chunk.token_counts.map Prod.fst).count t =
      chunks.countP fun chunk => (tokenize chunk.chunk_text).contains t := by
    rw [List.flatMap_congr hkeys, count_flatMap_of_nodup fun _ _ => nodup_eraseDups _]
    refine List.countP_congr fun chunk _ => ?_
    simp [List.mem_eraseDups]
  unfold docFreq
  rw [mem_counter, hcount, ← List.count_pos_iff, hcount]
  constructor
  · rintro ⟨hpos, rfl⟩
    exact ⟨hpos, rfl⟩
  · rintro ⟨hpos, rfl⟩
    exact ⟨hpos, rfl⟩

theorem payloadOf_sound (p : Process) (now : ℕ) {sources : List (Path × File)}
    (hnames : (sources.map Prod.fst).Nodup) (manifest : List (Path × ℕ × ℕ)) :
    SoundPayload embed (payloadOf embed p now sources manifest) := by
  have hchunks : ∀ chunk ∈ sources.flatMap (indexFile embed p), SoundChunk embed p chunk := by
    intro chunk hchunk
    obtain ⟨x, -, hx⟩ := List.mem_flatMap.mp hchunk
    exact (indexFile_sound hx).1
  exact ⟨rfl, ⟨rfl, rfl⟩, chunks_ids hnames, ⟨p, rfl, hchunks⟩, counter_nodup _,
    fun t n => mem_docFreq hchunks⟩

end Sound

end EdgeLink.KnowledgeIndex
