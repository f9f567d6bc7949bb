import EdgeLink.Greedy
import EdgeLink.KnowledgeRuns

namespace EdgeLink.Retriever
open Gateway (decimal)
open KnowledgeIndex Greedy
open PyText (Str strip lower)

def QUERY_EXPANSIONS : List (Str × List Str) :=
  [("协议".toList, ["帧格式", "frame", "payload", "crc16", "len", "type"].map String.toList),
    ("帧".toList, ["frame", "协议", "报文"].map String.toList),
    ("ota".toList, ["升级", "firmware", "ack", "nack", "progress"].map String.toList),
    ("升级".toList, ["ota", "firmware", "版本", "progress"].map String.toList),
    ("传感器".toList, ["sensor", "温度", "湿度", "light", "状态"].map String.toList),
    ("失败".toList, ["error", "timeout", "ack timeout", "last_error"].map String.toList)]

def expandQuery (question : Str) : Str :=
  let extra := QUERY_EXPANSIONS.flatMap fun x =>
    if x.1 <:+: question ∨ x.1 <:+: lower question then x.2 else []
  [' '].intercalate (question :: extra)

/-- `a or b` -/
def orElse (a b : Str) : Str := if a = [] then b else a

section
variable {E : Type*}

/-- `str(item.get("source_name") or item.get("source_path") or "unknown")` -/
def sourceName (source_name source_path : Str) : Str :=
  orElse source_name (orElse source_path "unknown".toList)

def buildCitation (chunk : IndexedChunk E) : Str :=
  let source_name := sourceName chunk.source_name chunk.source_path
  let section_title := strip chunk.section_title
  let place := " / chunk-".toList ++ decimal chunk.chunk_index
  if section_title = [] then source_name ++ place
  else source_name ++ " / ".toList ++ section_title ++ place

def matchedLoop (chunk_tokens matches_ : List Str) : List Str → List Str
  | [] => matches_
  | token :: tokens =>
    let matches_ :=
      if token ∈ chunk_tokens ∧ token ∉ matches_ then matches_ ++ [token] else matches_
    if 8 ≤ matches_.length then matches_ else matchedLoop chunk_tokens matches_ tokens

def matchedTerms (query_tokens : List Str) (chunk : IndexedChunk E) : List Str :=
  matchedLoop (tokenize chunk.chunk_text) [] query_tokens

end

/-- The rounded scores of a chunk. -/
structure Scores (V : Type*) where
  lexical_score : V
  semantic_score : V
  score : V

structure Hit (V : Type*) where
  chunk_id : Str
  source_path : Path
  source_name : Str
  section_title : Str
  chunk_index : ℕ
  citation : Str
  chunk_text : Str
  matched_terms : List Str
  scores : Scores V

/-- A hit with its embedding. -/
structure Item (E V : Type*) where
  hit : Hit V
  embedding : E

def Hit.source {V : Type*} (hit : Hit V) : Str := sourceName hit.source_name hit.source_path

section Retrieve
variable {E V : Type*} [LinearOrder V] (scoresOf : Payload E → Str → IndexedChunk E → Option (Scores V))
  (mmr_score : List (Item E V) → Item E V → V)

def itemOf (query_tokens : List Str) (chunk : IndexedChunk E) (scores : Scores V) : Item E V where
  hit :=
    { chunk_id := chunk.chunk_id
      source_path := chunk.source_path
      source_name := chunk.source_name
      section_title := chunk.section_title
      chunk_index := chunk.chunk_index
      citation := buildCitation chunk
      chunk_text := chunk.chunk_text
      matched_terms := matchedTerms query_tokens chunk
      scores := scores }
  embedding := chunk.embedding

/-- A chunk without scores is passed over; chunks of one score stay in their order. -/
def scored (payload : Payload E) (question : Str) : List (Item E V) :=
  let query_tokens := tokenize (expandQuery question)
  (payload.chunks.filterMap fun chunk =>
    (scoresOf payload question chunk).map (itemOf query_tokens chunk)).insertionSort
      fun a b => b.hit.scores.score ≤ a.hit.scores.score

def candidates (scored : List (Item E V)) (top_k : ℕ) : List (Item E V) :=
  scored.take (max (top_k * 3) top_k)

def mmrRerank (scored : List (Item E V)) (top_k : ℕ) : List (Item E V) :=
  choose mmr_score top_k [] (candidates scored top_k)

def max_per_source : ℕ := 2

def applySourceDiversity (items : List (Item E V)) (top_k : ℕ) : List (Item E V) :=
  let r := capLoop (fun item => item.hit.source) max_per_source (fun _ => 0) items
  (r.1 ++ r.2.take (top_k - r.1.length)).take top_k

def retrieve (payload : Payload E) (question : Str) (top_k : ℕ) : List (Hit V) :=
  (applySourceDiversity (mmrRerank mmr_score (scored scoresOf payload question) top_k) top_k).map
    Item.hit

end Retrieve

section Scored
variable {E V : Type*} [LinearOrder V]
  {scoresOf : Payload E → Str → IndexedChunk E → Option (Scores V)} {payload : Payload E}
  {question : Str} {embed : Process → Str → E}

theorem scored_perm : (scored scoresOf payload question).Perm
    (payload.chunks.filterMap fun chunk => (scoresOf payload question chunk).map
      (itemOf (tokenize (expandQuery question)) chunk)) := List.perm_insertionSort _ _

theorem mem_scored {item : Item E V} (h : item ∈ scored scoresOf payload question) :
    ∃ chunk ∈ payload.chunks, ∃ scores, scoresOf payload question chunk = some scores ∧
      item = itemOf (tokenize (expandQuery question)) chunk scores := by
  obtain ⟨chunk, hchunk, hitem⟩ := List.mem_filterMap.mp (scored_perm.mem_iff.mp h)
  obtain ⟨scores, hscores, rfl⟩ := Option.map_eq_some_iff.mp hitem
  exact ⟨chunk, hchunk, scores, hscores, rfl⟩

theorem scored_ids (h : SoundPayload embed payload) :
    ((scored scoresOf payload question).map fun item => item.hit.chunk_id).Nodup := by
  refine (scored_perm.map _).nodup_iff.mpr (List.pairwise_map.mpr (List.pairwise_filterMap.mpr ?_))
  refine (List.pairwise_map.mp h.ids).imp fun {a b} hab item hitem item' hitem' => ?_
  obtain ⟨scores, -, rfl⟩ := Option.map_eq_some_iff.mp hitem
  obtain ⟨scores', -, rfl⟩ := Option.map_eq_some_iff.mp hitem'
  exact hab

theorem scored_sorted : (scored scoresOf payload question).Pairwise
    fun a b => b.hit.scores.score ≤ a.hit.scores.score := by
  have : Std.Total fun a b : Item E V => b.hit.scores.score ≤ a.hit.scores.score :=
    ⟨fun a b => le_total _ _⟩
  have : IsTrans (Item E V) fun a b => b.hit.scores.score ≤ a.hit.scores.score :=
    ⟨fun a b c hab hbc => hbc.trans hab⟩
  exact List.pairwise_insertionSort _ _

end Scored

/-- The limit for a source drops nothing: there are no more choices than hits are asked for. -/
theorem applySourceDiversity_eq {E V : Type*} {items : List (Item E V)} {top_k : ℕ}
    (h : items.length ≤ top_k) :
    applySourceDiversity items top_k =
      (capLoop (fun item => item.hit.source) max_per_source (fun _ => 0) items).1 ++
        (capLoop (fun item => item.hit.source) max_per_source (fun _ => 0) items).2 := by
  have hlen := (capLoop_perm (fun item : Item E V => item.hit.source) max_per_source (fun _ => 0)
    items).length_eq
  rw [List.length_append] at hlen
  unfold applySourceDiversity
  dsimp only
  generalize capLoop (fun item : Item E V => item.hit.source) max_per_source (fun _ => 0) items =
    r at hlen ⊢
  have hall : r.2.take (top_k - r.1.length) = r.2 := List.take_of_length_le (by omega)
  rw [hall]
  refine List.take_of_length_le ?_
  rw [List.length_append]
  omega

section Ranked
variable {E V : Type*} [LinearOrder V]

/-- The choices among what was `found`, and the hits: `front`, with two of a source, then `back`. -/
structure Ranked (mmr_score : List (Item E V) → Item E V → V) (found : List (Item E V)) (top_k : ℕ)
    (hits : List (Hit V)) (chosen front back : List (Item E V)) : Prop where
  greedy : Chosen mmr_score (candidates found top_k) chosen
  length : chosen.length = min top_k found.length
  cutoff : ∀ a ∈ candidates found top_k, ∀ b ∈ found, b ∉ candidates found top_k →
    b.hit.scores.score ≤ a.hit.scores.score
  parts : hits = (front ++ back).map Item.hit
  perm : (front ++ back).Perm chosen
  order : front.Sublist chosen ∧ back.Sublist chosen
  kept : ∀ s, front.filter (·.hit.source = s) = (chosen.filter (·.hit.source = s)).take 2
  putOff : ∀ s, back.filter (·.hit.source = s) = (chosen.filter (·.hit.source = s)).drop 2
  ids : (hits.map Hit.chunk_id).Nodup

variable {mmr_score : List (Item E V) → Item E V → V} {found : List (Item E V)} {top_k : ℕ}

theorem mmrRerank_length (mmr_score : List (Item E V) → Item E V → V) (found : List (Item E V))
    (top_k : ℕ) : (mmrRerank mmr_score found top_k).length = min top_k found.length := by
  obtain ⟨rest, hperm, hrest⟩ := choose_perm mmr_score top_k [] (candidates found top_k)
  have hlen := hperm.length_eq
  rw [List.length_append, List.nil_append, hrest] at hlen
  have hcandidates : (candidates found top_k).length = min (max (top_k * 3) top_k) found.length :=
    List.length_take
  unfold mmrRerank
  omega

theorem mmrRerank_nodup (hids : (found.map fun item => item.hit.chunk_id).Nodup) :
    ((mmrRerank mmr_score found top_k).map fun item => item.hit.chunk_id).Nodup := by
  obtain ⟨rest, hperm, -⟩ := choose_perm mmr_score top_k [] (candidates found top_k)
  have hcandidates : ((candidates found top_k).map fun item => item.hit.chunk_id).Nodup :=
    hids.sublist ((List.take_sublist _ _).map _)
  have hall := (hperm.map fun item => item.hit.chunk_id).nodup_iff.mpr hcandidates
  rw [List.map_append] at hall
  exact hall.of_append_left

theorem candidates_cutoff (hsorted : found.Pairwise fun a b => b.hit.scores.score ≤ a.hit.scores.score)
    {a b : Item E V} (ha : a ∈ candidates found top_k) (hb : b ∈ found)
    (hnot : b ∉ candidates found top_k) : b.hit.scores.score ≤ a.hit.scores.score := by
  unfold candidates at ha hnot
  rw [← List.take_append_drop (max (top_k * 3) top_k) found] at hsorted hb
  exact (List.pairwise_append.mp hsorted).2.2 a ha b ((List.mem_append.mp hb).resolve_left hnot)

variable {scoresOf : Payload E → Str → IndexedChunk E → Option (Scores V)} {payload : Payload E}
  {embed : Process → Str → E}

theorem retrieve_ranked (h : SoundPayload embed payload) (question : Str) (top_k : ℕ) :
    ∃ chosen front back, Ranked mmr_score (scored scoresOf payload question) top_k
      (retrieve scoresOf mmr_score payload question top_k) chosen front back := by
  generalize hfound : scored scoresOf payload question = found
  have hlength := mmrRerank_length mmr_score found top_k
  have hchosen : (mmrRerank mmr_score found top_k).length ≤ top_k := by omega
  have hhits : retrieve scoresOf mmr_score payload question top_k =
      (applySourceDiversity (mmrRerank mmr_score found top_k) top_k).map Item.hit := by
    rw [← hfound]
    rfl
  have hperm := capLoop_perm (fun item : Item E V => item.hit.source) max_per_source (fun _ => 0)
    (mmrRerank mmr_score found top_k)
  have hkey := capLoop_key (fun item : Item E V => item.hit.source) max_per_source (fun _ => 0)
    (mmrRerank mmr_score found top_k)
  refine ⟨mmrRerank mmr_score found top_k, _, _, ?_, hlength, ?_, ?_, hperm,
    capLoop_sublist _ _ _ _, fun s => (hkey s).1, fun s => (hkey s).2, ?_⟩
  · refine choose_chosen (fun a ha => Or.inr ha) fun i a ha => ?_
    cases ha
  · intro a ha b hb hnot
    exact candidates_cutoff (hfound ▸ scored_sorted) ha hb hnot
  · rw [hhits, applySourceDiversity_eq hchosen]
  · have hfoundIds : (found.map fun item => item.hit.chunk_id).Nodup := hfound ▸ scored_ids h
    have hids : ((mmrRerank mmr_score found top_k).map fun item => item.hit.chunk_id).Nodup :=
      mmrRerank_nodup hfoundIds
    rw [hhits, applySourceDiversity_eq hchosen, List.map_map]
    exact (hperm.map _).nodup_iff.mpr hids

/-- Whatever has happened to the files and to the index file: of the chunks of the answered index
that have scores, `retrieve` answers `top_k` different ones, or all; each was the best choice left
among the `3 * top_k` of the highest scores, and the limit for a source only puts its third hit and
later ones behind the others. -/
theorem hits_ranked (scoresOf : Payload E → Str → IndexedChunk E → Option (Scores V))
    (mmr_score : List (Item E V) → Item E V → V) {gateway_root : Path} (p : Process) (t : Tree)
    (es : List (Event E)) {now : ℕ} {later : Tree}
    (h : (step embed gateway_root (Machine.run (step embed gateway_root) ⟨p, t, .missing⟩ es)
      (.ensure now later)).2 = some payload) (question : Str) (top_k : ℕ) :
    (∃ chosen front back, Ranked mmr_score (scored scoresOf payload question) top_k
        (retrieve scoresOf mmr_score payload question top_k) chosen front back) ∧
      ∀ item ∈ scored scoresOf payload question, ∃ chunk ∈ payload.chunks, ∃ scores,
        scoresOf payload question chunk = some scores ∧
          item = itemOf (tokenize (expandQuery question)) chunk scores :=
  ⟨retrieve_ranked ((SoundIndex.run p t es).ensure h) question top_k, fun _ => mem_scored⟩

end Ranked

theorem hits_ranked_readme :
    let payload := fullPayload (fun _ _ => ()) ⟨.hashingFallback, 1⟩ 1
      (sourceFiles sampleRoot (sampleTree readmeOld.2))
    let scoresOf := fun (_ : Payload Unit) (_ : Str) (chunk : IndexedChunk Unit) =>
      some (Scores.mk 0 0 chunk.token_total)
    let mmr_score := fun (selected : List (Item Unit ℕ)) (item : Item Unit ℕ) =>
      item.hit.scores.score + selected.length
    (∃ chosen front back, Ranked mmr_score (scored scoresOf payload "ota".toList) 4
        (retrieve scoresOf mmr_score payload "ota".toList 4) chosen front back) ∧
      ∀ item ∈ scored scoresOf payload "ota".toList, ∃ chunk ∈ payload.chunks, ∃ scores,
        scoresOf payload "ota".toList chunk = some scores ∧
          item = itemOf (tokenize (expandQuery "ota".toList)) chunk scores := by
  have hbuilt : (step (fun _ _ => ()) sampleRoot
      (Machine.run (step (fun _ _ => ()) sampleRoot) sampleStart [])
      (.ensure 1 (sampleTree readmeOld.2))).2 = some (fullPayload (fun _ _ => ())
        ⟨.hashingFallback, 1⟩ 1 (sourceFiles sampleRoot (sampleTree readmeOld.2))) :=
    @buildIndexPayload_quiet Unit (fun _ _ => ()) sampleRoot ⟨.hashingFallback, 1⟩ 1
      (sampleTree readmeOld.2) _ rfl
  exact hits_ranked _ _ _ _ [] hbuilt "ota".toList 4

end EdgeLink.Retriever
