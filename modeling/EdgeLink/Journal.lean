import EdgeLink.NorFlash

namespace EdgeLink.Journal
open LittleEndian Nor

section Pick

variable {Slot Rec : Type*} (parse : Slot → Option Rec) (newer : Rec → Rec → Bool)

/-- One slot of the scan: unreadable slots are skipped, and of two records that are not `newer`
than each other the first one stays. -/
def keep (best : Option Rec) (s : Slot) : Option Rec :=
  match parse s, best with
  | none, best => best
  | some r, none => some r
  | some r, some b => if newer r b then some r else some b

def pick (slots : List Slot) : Option Rec := slots.foldl (keep parse newer) none

@[simp] theorem pick_nil : pick parse newer [] = none := rfl

theorem pick_append_one (slots : List Slot) (s : Slot) :
    pick parse newer (slots ++ [s]) = keep parse newer (pick parse newer slots) s := by
  simp [pick]

variable {parse newer}

theorem keep_unreadable {s : Slot} (h : parse s = none) (best : Option Rec) :
    keep parse newer best s = best := by
  unfold keep
  rw [h]

theorem keep_first {s : Slot} {r : Rec} (h : parse s = some r) :
    keep parse newer none s = some r := by
  unfold keep
  rw [h]

theorem keep_newer {s : Slot} {r b : Rec} (h : parse s = some r) (hn : newer r b = true) :
    keep parse newer (some b) s = some r := by
  unfold keep
  rw [h]
  exact if_pos hn

theorem keep_older {s : Slot} {r b : Rec} (h : parse s = some r) (hn : newer r b = false) :
    keep parse newer (some b) s = some b := by
  unfold keep
  rw [h]
  exact if_neg (by simp [hn])

/-- What a scan step returns was there before or is the record in the slot. -/
theorem keep_cases {best : Option Rec} {s : Slot} {r : Rec}
    (h : keep parse newer best s = some r) : best = some r ∨ parse s = some r := by
  unfold keep at h
  split at h
  · exact Or.inl h
  · rename_i hp
    exact Or.inr (hp.trans h)
  · rename_i hp
    split_ifs at h
    · exact Or.inr (hp.trans h)
    · exact Or.inl h

theorem pick_mem {slots : List Slot} {r : Rec} (h : pick parse newer slots = some r) :
    ∃ s ∈ slots, parse s = some r := by
  induction slots using List.reverseRecOn with
  | nil => cases h
  | append_singleton slots s ih =>
    rw [pick_append_one] at h
    rcases keep_cases h with hb | hs
    · obtain ⟨t, ht, hp⟩ := ih hb
      exact ⟨t, List.mem_append_left _ ht, hp⟩
    · exact ⟨s, by simp, hs⟩

theorem pick_singleton {s : Slot} {r : Rec} (h : parse s = some r) :
    pick parse newer [s] = some r := keep_first h

end Pick

/-- A slot that received only its first bytes. -/
def pad (size : ℕ) (bs : Bytes) : Bytes := bs ++ List.replicate (size - bs.length) 0xFF

theorem pad_length {size : ℕ} {bs : Bytes} (h : bs.length ≤ size) : (pad size bs).length = size := by
  simp [pad]
  omega

theorem pad_full {size : ℕ} {bs : Bytes} (h : bs.length = size) : pad size bs = bs := by
  simp [pad, h]

theorem read_program_pad {m : Mem} {a size : ℕ} {bs : Bytes} (hb : Blank m a size)
    (hbs : bs.length ≤ size) : read (program m a bs) a size = pad size bs := by
  obtain ⟨k, rfl⟩ := Nat.exists_eq_add_of_le hbs
  have htail : Blank (program m a bs) (a + bs.length) k := by
    intro x hx hx'
    rw [program_outside (by omega)]
    exact hb x (by omega) (by omega)
  rw [read_add, program_blank (hb.mono le_rfl (by omega)), read_blank htail, pad,
    Nat.add_sub_cancel_left]

structure Shaped (base size count : ℕ) (m : Mem) (slots : List Bytes) : Prop where
  room : slots.length ≤ count
  sized : ∀ s ∈ slots, s.length = size
  written : ∀ s ∈ slots, ∃ b ∈ s, b ≠ 0xFF
  stored : ∀ i (h : i < slots.length), read m (base + i * size) size = slots[i]
  rest : Blank m (base + slots.length * size) ((count - slots.length) * size)

variable {base size count : ℕ} {m m' : Mem} {slots : List Bytes}

theorem slot_le (size : ℕ) {i n : ℕ} (h : i < n) : i * size + size ≤ n * size := by
  rw [← Nat.succ_mul]
  exact Nat.mul_le_mul_right _ h

theorem shaped_erased (h : Blank m base (count * size)) : Shaped base size count m [] where
  room := Nat.zero_le _
  sized := by simp
  written := by simp
  stored := by simp
  rest := by simpa using h

theorem Shaped.congr (h : Shaped base size count m slots) (hm : AgreeOn m m' base (count * size)) :
    Shaped base size count m' slots where
  room := h.room
  sized := h.sized
  written := h.written
  stored i hi := by
    have := slot_le size (hi.trans_le h.room)
    rw [← h.stored i hi]
    exact (read_congr (hm.mono (by omega) (by omega))).symm
  rest := by
    have : slots.length * size + (count - slots.length) * size = count * size := by
      rw [← Nat.add_mul, Nat.add_sub_cancel' h.room]
    exact h.rest.congr (hm.mono (by omega) (by omega))

theorem Shaped.slot_written (h : Shaped base size count m slots) {i : ℕ} (hi : i < slots.length) :
    ¬ Blank m (base + i * size) size := by
  rw [blank_iff_read, h.stored i hi]
  obtain ⟨b, hb, hne⟩ := h.written _ (List.getElem_mem hi)
  exact fun hall => hne (hall b hb)

theorem Shaped.slot_blank (h : Shaped base size count m slots) (hroom : slots.length < count) :
    Blank m (base + slots.length * size) size := by
  refine h.rest.mono le_rfl ?_
  have := Nat.le_mul_of_pos_left size (Nat.sub_pos_of_lt hroom)
  omega

/-- The bytes `bs` programmed into the first free slot, the rest of that slot left erased. -/
theorem Shaped.append (h : Shaped base size count m slots) (hroom : slots.length < count)
    {bs : Bytes} (hbs : bs.length ≤ size) (hw : ∃ b ∈ bs, b ≠ 0xFF) :
    Shaped base size count (program m (base + slots.length * size) bs)
      (slots ++ [pad size bs]) where
  room := by simpa using hroom
  sized := by
    intro s hs
    rcases List.mem_append.mp hs with hs | hs
    · exact h.sized s hs
    · rw [List.mem_singleton] at hs
      exact hs ▸ pad_length hbs
  written := by
    intro s hs
    rcases List.mem_append.mp hs with hs | hs
    · exact h.written s hs
    · rw [List.mem_singleton] at hs
      obtain ⟨b, hb, hne⟩ := hw
      exact ⟨b, hs ▸ List.mem_append_left _ hb, hne⟩
  stored := by
    intro i hi
    rw [List.length_append, List.length_singleton] at hi
    by_cases hlt : i < slots.length
    · have := slot_le size hlt
      rw [List.getElem_append_left hlt, ← h.stored i hlt]
      exact read_congr fun x hx hx' => program_outside (by omega)
    · obtain rfl : i = slots.length := by omega
      rw [List.getElem_append_right le_rfl]
      simp only [Nat.sub_self, List.getElem_singleton]
      exact read_program_pad (h.slot_blank hroom) hbs
  rest := by
    have hc : (count - slots.length) * size = size + (count - (slots.length + 1)) * size := by
      rw [show count - slots.length = (count - (slots.length + 1)) + 1 by omega, Nat.succ_mul,
        Nat.add_comm]
    intro x hx hx'
    rw [List.length_append, List.length_singleton, Nat.succ_mul] at hx
    rw [List.length_append, List.length_singleton, Nat.succ_mul] at hx'
    rw [program_outside (by omega)]
    exact h.rest x (by omega) (by omega)

/-- Bytes that program nothing leave the journal as it was. -/
theorem Shaped.append_ff (h : Shaped base size count m slots) (n : ℕ) (a : ℕ) :
    Shaped base size count (program m a (List.replicate n 0xFF)) slots := by
  rwa [program_ff]

theorem Shaped.unique {slots' : List Bytes} (h : Shaped base size count m slots)
    (h' : Shaped base size count m slots') : slots = slots' := by
  have key : ∀ {l l' : List Bytes}, Shaped base size count m l → Shaped base size count m l' →
      l.length ≤ l'.length := by
    intro l l' hl hl'
    by_contra hlt
    exact hl.slot_written (by omega) (hl'.slot_blank (by have := hl.room; omega))
  have hlen : slots.length = slots'.length := le_antisymm (key h h') (key h' h)
  apply List.ext_getElem hlen
  intro i hi hi'
  rw [← h.stored i hi, h'.stored i hi']

def cut (life : Option ℕ) (bs : Bytes) : Bytes :=
  match life with
  | none => bs
  | some k => bs.take k

theorem cut_length_le (life : Option ℕ) (bs : Bytes) : (cut life bs).length ≤ bs.length := by
  cases life with
  | none => exact le_rfl
  | some k => simp [cut]

def put (base size count span : ℕ) (life : Option ℕ) (m : Mem) (slots : List Bytes) (bs : Bytes) :
    Mem :=
  if slots.length < count then program m (base + slots.length * size) (cut life bs)
  else if life = some 0 then m
  else program (erase m base span) base (cut (life.map (· - 1)) bs)

/-- A slot that received only 0xFF still counts as free. -/
def addSlot (size : ℕ) (slots : List Bytes) (bs : Bytes) : List Bytes :=
  if ∀ b ∈ bs, b = 0xFF then slots else slots ++ [pad size bs]

def putSlots (size count : ℕ) (life : Option ℕ) (slots : List Bytes) (bs : Bytes) : List Bytes :=
  if slots.length < count then addSlot size slots (cut life bs)
  else if life = some 0 then slots
  else addSlot size [] (cut (life.map (· - 1)) bs)

theorem Shaped.addSlot (h : Shaped base size count m slots) (hroom : slots.length < count)
    {bs : Bytes} (hbs : bs.length ≤ size) :
    Shaped base size count (program m (base + slots.length * size) bs)
      (addSlot size slots bs) := by
  unfold Journal.addSlot
  split_ifs with hff
  · have hrep : bs = List.replicate bs.length 0xFF := List.eq_replicate_iff.mpr ⟨rfl, hff⟩
    rw [hrep]
    exact h.append_ff _ _
  · push Not at hff
    exact h.append hroom hbs hff

theorem Shaped.put (h : Shaped base size count m slots) {span : ℕ} (hspan : count * size ≤ span)
    (hcount : 0 < count) (life : Option ℕ) {bs : Bytes} (hbs : bs.length = size) :
    Shaped base size count (put base size count span life m slots bs)
      (putSlots size count life slots bs) := by
  unfold Journal.put putSlots
  split_ifs with hroom h0
  · exact h.addSlot hroom (hbs ▸ cut_length_le life bs)
  · exact h
  · have he : Shaped base size count (erase m base span) [] :=
      shaped_erased ((erase_blank m base span).mono le_rfl (by omega))
    simpa using he.addSlot hcount (hbs ▸ cut_length_le _ bs)

theorem put_outside {span : ℕ} (hspan : count * size ≤ span) (hcount : 0 < count)
    (life : Option ℕ) {bs : Bytes} (hbs : bs.length = size) {x : ℕ}
    (hx : x < base ∨ base + span ≤ x) : put base size count span life m slots bs x = m x := by
  have hc := cut_length_le life bs
  have hc' := cut_length_le (life.map (· - 1)) bs
  have hone := slot_le size hcount
  unfold put
  split_ifs with hroom
  · have := slot_le size hroom
    exact program_outside (by omega)
  · rfl
  · rw [program_outside (by omega), erase_outside hx]

/-- A whole commit of a record that is not all 0xFF. -/
theorem putSlots_full {bs : Bytes} (hbs : bs.length = size) (hw : ∃ b ∈ bs, b ≠ 0xFF) :
    putSlots size count none slots bs = if slots.length < count then slots ++ [bs] else [bs] := by
  have hff : ¬ ∀ b ∈ bs, b = 0xFF := by
    push Not
    exact hw
  simp [putSlots, Journal.addSlot, cut, hff, pad_full hbs]

end EdgeLink.Journal
