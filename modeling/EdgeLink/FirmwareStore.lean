import EdgeLink.Crc
import EdgeLink.Machine
import EdgeLink.Manifest

/-! The firmware store of the gateway over a file system that maps normalised paths to nodes. -/

namespace EdgeLink.Firmware

open Json

abbrev Path := List Text

inductive Node
  | dir
  | file (content : Text)
  deriving DecidableEq

abbrev Tree := Path → Option Node

def slash : UInt8 := 0x2F

def components : Text → List Text
  | [] => [[]]
  | b :: t =>
    if b = slash then [] :: components t
    else match components t with
      | [] => [[b]]
      | c :: cs => (b :: c) :: cs

def enter (p : Path) (name : Text) : Path :=
  if name = [] ∨ name = ascii "." then p
  else if name = ascii ".." then p.dropLast
  else p ++ [name]

/-- Where the system calls end up; a path text ends at its first zero byte. -/
def resolve (cwd : Path) (t : Text) : Path :=
  let t := t.takeWhile (· != 0)
  (components t).foldl enter (if t.head? = some slash then [] else cwd)

/-- `p / q` of `std::filesystem::path` -/
def join (p q : Text) : Text :=
  if q.head? = some slash then q
  else if p = [] ∨ p.getLast? = some slash then p ++ q
  else p ++ slash :: q

/-- A name of a directory entry. -/
structure IsEntry (name : Text) : Prop where
  nonempty : name ≠ []
  notDot : name ≠ ascii "."
  notDotDot : name ≠ ascii ".."
  noSlash : slash ∉ name
  noZero : 0 ∉ name

instance (name : Text) : Decidable (IsEntry name) :=
  decidable_of_iff (name ≠ [] ∧ name ≠ ascii "." ∧ name ≠ ascii ".." ∧ slash ∉ name ∧ 0 ∉ name)
    ⟨fun ⟨a, b, c, d, e⟩ => ⟨a, b, c, d, e⟩, fun ⟨a, b, c, d, e⟩ => ⟨a, b, c, d, e⟩⟩

/-- `root_dir_`, as the process in the directory `cwd` sees it. -/
structure FirmwareStore where
  cwd : Path
  rootDir : Text
  noZero : 0 ∉ rootDir

structure FirmwareRecord where
  manifest : OtaManifest
  baseDir : Text
  imagePath : Text
  deriving DecidableEq

/-- What the environment decides in one call: what can be opened and how far a change gets. -/
structure Luck where
  manifestOpens : Bool
  imageSized : Bool
  imageOpens : Bool
  /-- An error after so many directories. -/
  createError : Option ℕ
  /-- An error, before the target is opened or after so many bytes. -/
  copyError : Option (Option ℕ)
  writes : Bool
  /-- So many bytes of the manifest arrive; the stream is not asked. -/
  written : Option ℕ
  /-- What cannot be deleted. -/
  stuck : List Path

def Luck.fair : Luck := ⟨true, true, true, none, none, true, none, []⟩

/-- What a call did to the file system and what it returned. -/
structure Report where
  touched : Path → Bool
  result : Except Text Unit

def crc32Update (crc : UInt32) (data : Text) : UInt32 := ~~~ data.foldl crc32Byte (~~~ crc)

def hexDigit (n : ℕ) : UInt8 := if n < 10 then 0x30 + .ofNat n else 0x37 + .ofNat n

/-- `0x%08X` -/
def toHexCrc (crc : UInt32) : Text :=
  ascii "0x" ++ (List.range 8).map fun i => hexDigit (crc.toNat / 16 ^ (7 - i) % 16)

namespace FirmwareStore

variable (st : FirmwareStore) (luck : Luck) (tree : Tree)

def root : Path := resolve st.cwd st.rootDir

def dirText (id : Text) : Text := join st.rootDir id

def imageText (id : Text) : Text := join (st.dirText id) (ascii "app.bin")

def manifestText (id : Text) : Text := join (st.dirText id) (ascii "manifest.json")

def place (t : Text) : Path := resolve st.cwd t

/-- A directory opens as well, and reads as nothing. -/
def loadManifestFile (opens : Bool) (t : Text) : Except Text OtaManifest :=
  match opens, tree (st.place t) with
  | true, some (.file content) => parseManifestText content
  | true, some .dir => parseManifestText []
  | _, _ => .error (ascii "failed to open manifest: " ++ t)

def fileAt (t : Text) : Option Text :=
  match tree (st.place t) with
  | some (.file content) => some content
  | _ => none

end FirmwareStore

def Tree.set (tree : Tree) (p : Path) (n : Node) : Tree := fun q => if q = p then some n else tree q

/-- The directories that `create_directories` has to make, from the top. -/
def missing (tree : Tree) (p : Path) : List Path :=
  p.inits.filter fun q => q ≠ [] ∧ tree q = none

/-- `fs::create_directories`: the new tree, what was made, and whether it succeeded. -/
def createDirectories (luck : Luck) (tree : Tree) (p : Path) : Tree × List Path × Bool :=
  if p.inits.any fun q => match tree q with | some (.file _) => true | _ => false then
    (tree, [], false)
  else
    let made := match luck.createError with
      | none => missing tree p
      | some n => (missing tree p).take n
    (made.foldl (fun t q => t.set q .dir) tree, made, luck.createError.isNone)

/-- A file can be written at `p`. -/
def writable (tree : Tree) (p : Path) : Bool :=
  p ≠ [] ∧ tree p.dropLast = some .dir ∧ tree p ≠ some .dir

/-- `fs::copy_file` with `overwrite_existing` -/
def copyFile (luck : Luck) (tree : Tree) (source target : Path) : Tree × List Path × Bool :=
  match tree source with
  | some (.file content) =>
    if source = target ∨ ¬writable tree target then (tree, [], false)
    else match luck.copyError with
      | some none => (tree, [], false)
      | some (some n) => (tree.set target (.file (content.take n)), [target], false)
      | none => (tree.set target (.file content), [target], true)
  | _ => (tree, [], false)

namespace FirmwareStore

variable (st : FirmwareStore) (luck : Luck) (tree : Tree)

def failed (tree : Tree) (touched : List Path) (err : Text) : Tree × Report :=
  (tree, ⟨(· ∈ touched), .error err⟩)

/-- What `registerFirmware` does with a manifest it has checked. -/
def install (m : OtaManifest) (imagePath : Text) : Tree × Report :=
  let (tree₁, made, created) := createDirectories luck tree (st.place (st.dirText m.firmwareId))
  if ¬created then failed tree₁ made (ascii "failed to create firmware dir") else
  let (tree₂, copied, done) :=
    copyFile luck tree₁ (st.place imagePath) (st.place (st.imageText m.firmwareId))
  if ¬done then failed tree₂ (made ++ copied) (ascii "failed to copy image") else
  let target := st.place (st.manifestText m.firmwareId)
  if ¬(luck.writes ∧ writable tree₂ target) then
    failed tree₂ (made ++ copied) (ascii "failed to write manifest")
  else
    let text := manifestToJson m
    let content := match luck.written with
      | none => text
      | some n => text.take n
    (tree₂.set target (.file content), ⟨(· ∈ made ++ copied ++ [target]), .ok ()⟩)

/-- The manifest that `registerFirmware` goes by, once its checks are passed. -/
def check (manifestPath imagePath err : Text) : Except Text OtaManifest :=
  match st.loadManifestFile tree luck.manifestOpens manifestPath with
  | .error e => .error e
  | .ok m =>
    match luck.imageSized, st.fileAt tree imagePath with
    | true, some image =>
      if image.length ≠ m.imageSize.toNat then .error (ascii "image_size mismatch")
      else if ¬luck.imageOpens then .error (ascii "failed to open image: " ++ imagePath)
      else if err ≠ [] then .error err
      else if m.crc32 ≠ [] ∧ toHexCrc (crc32Update 0 image) ≠ m.crc32 then
        .error (ascii "crc32 mismatch")
      else .ok m
    | _, _ => .error (ascii "cannot read image size")

/-- `err` is what the caller's string holds. -/
def registerFirmware (manifestPath imagePath err : Text) : Tree × Report :=
  match st.check luck tree manifestPath imagePath err with
  | .error e => failed tree [] e
  | .ok m => st.install luck tree m imagePath

def get (id : Text) : Option FirmwareRecord :=
  match st.loadManifestFile tree true (st.manifestText id) with
  | .error _ => none
  | .ok m => some ⟨m, st.dirText id, st.imageText id⟩

/-- `names` are the entries of the root in the order in which the system lists them. -/
def list (names : List Text) : List FirmwareRecord :=
  names.filterMap fun name =>
    if tree (st.place (st.dirText name)) = some .dir then st.get tree name else none

/-- What `fs::remove_all` deletes below `p`: not what is stuck, nor the directories above it. -/
def removable (p q : Path) : Bool := p <+: q ∧ tree q ≠ none ∧ ∀ r ∈ luck.stuck, ¬q <+: r

def remove (id : Text) : Tree × Report :=
  let p := st.place (st.dirText id)
  let gone := removable luck tree p
  let result := if luck.stuck.any fun r => p <+: r ∧ tree r ≠ none then
      .error (ascii "remove failed")
    else if tree p = none then .error (ascii "firmware not found")
    else .ok ()
  (fun q => if gone q then none else tree q, ⟨gone, result⟩)

end FirmwareStore

/-- The calls that change the store. -/
inductive Call
  | register (manifestPath imagePath err : Text)
  | remove (id : Text)

namespace FirmwareStore

variable (st : FirmwareStore)

def step (tree : Tree) (e : Call × Luck) : Tree × Report :=
  match e.1 with
  | .register manifestPath imagePath err =>
    st.registerFirmware e.2 tree manifestPath imagePath err
  | .remove id => st.remove e.2 tree id

/-- The id a call works on; a registration has none before its manifest is checked. -/
def idOf (tree : Tree) (e : Call × Luck) : Option Text :=
  match e.1 with
  | .register manifestPath imagePath err =>
    match st.check e.2 tree manifestPath imagePath err with
    | .error _ => none
    | .ok m => some m.firmwareId
  | .remove id => some id

/-- The root is a directory, below directories. -/
def Rooted (tree : Tree) : Prop := ∀ q, q <+: st.root → tree q = some .dir

/-- `names` are the entries of the root directory. -/
def Lists (tree : Tree) (names : List Text) : Prop :=
  ∀ name, name ∈ names ↔ IsEntry name ∧ tree (st.root ++ [name]) ≠ none

/-- A call changed nothing but the directory of its own id; a refused registration changed
nothing that can be looked up. -/
structure Contained (tree : Tree) (e : Call × Luck) : Prop where
  below : ∀ p, (st.step tree e).2.touched p = true → ∃ id, st.idOf tree e = some id ∧
    IsEntry id ∧ st.root ++ [id] <+: p
  untouched : ∀ p, (st.step tree e).2.touched p = false → (st.step tree e).1 p = tree p
  others : ∀ id, IsEntry id → st.idOf tree e ≠ some id →
    st.get (st.step tree e).1 id = st.get tree id ∧
    ∀ p, st.root ++ [id] <+: p → (st.step tree e).1 p = tree p
  refused : ∀ manifestPath imagePath err text, e.1 = .register manifestPath imagePath err →
    (st.step tree e).2.result = .error text →
    (∀ id, 0 ∉ id → st.get (st.step tree e).1 id = st.get tree id) ∧
    ∀ names names', st.Lists tree names → st.Lists (st.step tree e).1 names' →
      ∀ r, r ∈ st.list (st.step tree e).1 names' ↔ r ∈ st.list tree names

/-- The call's id is the name of a directory entry. -/
def Named (tree : Tree) (e : Call × Luck) : Prop := ∀ id, st.idOf tree e = some id → IsEntry id

end FirmwareStore

theorem components_ne (t : Text) : components t ≠ [] := by
  cases t with
  | nil => exact List.cons_ne_nil _ _
  | cons b t =>
    rw [components]
    split
    · exact List.cons_ne_nil _ _
    · split <;> exact List.cons_ne_nil _ _

theorem components_append (p q : Text) :
    components (p ++ slash :: q) = components p ++ components q := by
  induction p with
  | nil => simp [components]
  | cons b p ih =>
    rw [List.cons_append, components, components, ih]
    by_cases hb : b = slash
    · simp [hb]
    · obtain ⟨c, cs, hc⟩ := List.exists_cons_of_ne_nil (components_ne p)
      simp [hb, hc]

theorem components_name {t : Text} (h : slash ∉ t) : components t = [t] := by
  induction t with
  | nil => rfl
  | cons b t ih =>
    obtain ⟨hb, ht⟩ := not_or.mp (List.mem_cons.not.mp h)
    rw [components, if_neg (Ne.symm hb), ih ht]

theorem enter_entry {name : Text} (h : IsEntry name) (p : Path) : enter p name = p ++ [name] := by
  rw [enter, if_neg (by simp [h.nonempty, h.notDot]), if_neg h.notDotDot]

theorem takeWhile_noZero {t : Text} (h : 0 ∉ t) : t.takeWhile (· != 0) = t := by
  rw [List.takeWhile_eq_self_iff]
  intro b hb
  exact bne_iff_ne.mpr fun h0 => h (h0 ▸ hb)

theorem resolve_entry {cwd : Path} {p name : Text} (hp : 0 ∉ p) (h : IsEntry name) :
    resolve cwd (join p name) = resolve cwd p ++ [name] := by
  have hhead : name.head? ≠ some slash := fun hh => h.noSlash (List.mem_of_mem_head? hh)
  have hzero : ∀ q : Text, 0 ∉ q → 0 ∉ p ++ (q ++ name) := by
    intro q hq hin
    rcases List.mem_append.mp hin with hin | hin
    · exact hp hin
    · exact (List.mem_append.mp hin).elim hq h.noZero
  rw [join, if_neg hhead]
  by_cases hend : p = [] ∨ p.getLast? = some slash
  · rw [if_pos hend]
    rcases hend with rfl | hlast
    · have hnil : resolve cwd [] = cwd := rfl
      rw [hnil]
      simp [resolve, takeWhile_noZero h.noZero, components_name h.noSlash, hhead, enter_entry h]
    · obtain ⟨p', rfl⟩ : ∃ p', p = p' ++ [slash] := List.getLast?_eq_some_iff.mp hlast
      have hfull : 0 ∉ p' ++ [slash] ++ name := by simpa using hzero [] List.not_mem_nil
      have hsplit : components (p' ++ [slash] ++ name) = components p' ++ [name] := by
        rw [List.append_assoc, List.singleton_append, components_append, components_name h.noSlash]
      have hdir : components (p' ++ [slash]) = components p' ++ [[]] := components_append p' []
      have hheads : (p' ++ [slash] ++ name).head? = (p' ++ [slash]).head? := by
        cases p' <;> rfl
      simp only [resolve, takeWhile_noZero hfull, takeWhile_noZero hp, hsplit, hdir, hheads,
        List.foldl_append, List.foldl_cons, List.foldl_nil, enter_entry h]
      simp [enter]
  · rw [if_neg hend]
    obtain ⟨hne, -⟩ := not_or.mp hend
    have hfull : 0 ∉ p ++ slash :: name := hzero [slash] (by decide)
    have hheads : (p ++ slash :: name).head? = p.head? := by
      cases p with
      | nil => exact absurd rfl hne
      | cons b p => rfl
    simp only [resolve, takeWhile_noZero hfull, takeWhile_noZero hp, hheads, components_append,
      components_name h.noSlash, List.foldl_append, List.foldl_cons, List.foldl_nil, enter_entry h]

theorem join_noZero {p q : Text} (hp : 0 ∉ p) (hq : 0 ∉ q) : 0 ∉ join p q := by
  unfold join
  split_ifs
  · exact hq
  · exact fun h => (List.mem_append.mp h).elim hp hq
  · intro h
    rcases List.mem_append.mp h with h | h
    · exact hp h
    · rcases List.mem_cons.mp h with h | h
      · exact absurd h (by decide)
      · exact hq h

theorem image_entry : IsEntry (ascii "app.bin") := by decide +kernel

theorem manifest_entry : IsEntry (ascii "manifest.json") := by decide +kernel

namespace FirmwareStore

variable (st : FirmwareStore) {id : Text}

def imagePath (id : Text) : Path := st.root ++ [id] ++ [ascii "app.bin"]

def manifestPath (id : Text) : Path := st.root ++ [id] ++ [ascii "manifest.json"]

theorem place_dir (h : IsEntry id) : st.place (st.dirText id) = st.root ++ [id] :=
  resolve_entry st.noZero h

theorem place_image (h : IsEntry id) : st.place (st.imageText id) = st.imagePath id := by
  rw [imagePath, ← st.place_dir h]
  exact resolve_entry (join_noZero st.noZero h.noZero) image_entry

theorem place_manifest (h : 0 ∉ id) : st.place (st.manifestText id) =
    st.place (st.dirText id) ++ [ascii "manifest.json"] :=
  resolve_entry (join_noZero st.noZero h) manifest_entry

theorem place_manifest_entry (h : IsEntry id) :
    st.place (st.manifestText id) = st.manifestPath id := by
  rw [st.place_manifest h.noZero, st.place_dir h, manifestPath]

end FirmwareStore

/-- Every node is in a directory. -/
def Closed (tree : Tree) : Prop := ∀ p name, tree (p ++ [name]) ≠ none → tree p = some .dir

@[simp] theorem set_same (tree : Tree) (p : Path) (n : Node) : tree.set p n p = some n := if_pos rfl

theorem set_other (tree : Tree) {p q : Path} (n : Node) (h : q ≠ p) : tree.set p n q = tree q :=
  if_neg h

theorem closed_set {tree : Tree} (h : Closed tree) {parent : Path} {name : Text} {n : Node}
    (hparent : tree parent = some .dir) (hn : n = .dir ∨ tree (parent ++ [name]) ≠ some .dir) :
    Closed (tree.set (parent ++ [name]) n) := by
  intro q child hq
  by_cases hnode : q ++ [child] = parent ++ [name]
  · obtain ⟨rfl, -⟩ := List.append_inj' hnode rfl
    have hne : q ≠ q ++ [name] := fun heq => by simpa using congrArg List.length heq
    rw [set_other tree n hne]
    exact hparent
  · rw [set_other tree n hnode] at hq
    have hdir := h q child hq
    by_cases hq' : q = parent ++ [name]
    · subst hq'
      rcases hn with rfl | hn
      · exact set_same tree _ _
      · exact absurd hdir hn
    · rw [set_other tree n hq']
      exact hdir

section frames

variable (luck : Luck) (tree : Tree)

theorem makeAll_frame (made : List Path) (q : Path) :
    made.foldl (fun t q => t.set q .dir) tree q = if q ∈ made then some .dir else tree q := by
  induction made generalizing tree with
  | nil => rfl
  | cons p made ih =>
    rw [List.foldl_cons, ih]
    by_cases hq : q ∈ made
    · simp [hq]
    · by_cases hp : q = p
      · simp [hp]
      · simp [hq, hp, set_other tree _ hp]

theorem createDirectories_frame (p : Path) :
    (∀ q ∈ (createDirectories luck tree p).2.1, q <+: p ∧ tree q = none) ∧
    ∀ q, (createDirectories luck tree p).1 q =
      if q ∈ (createDirectories luck tree p).2.1 then some .dir else tree q := by
  have hmissing : ∀ q ∈ missing tree p, q <+: p ∧ tree q = none := by
    intro q hq
    obtain ⟨hin, hq⟩ := List.mem_filter.mp hq
    exact ⟨(List.mem_inits q p).mp hin, (of_decide_eq_true hq).2⟩
  unfold createDirectories
  split
  · exact ⟨fun q hq => absurd hq List.not_mem_nil, fun q => (if_neg List.not_mem_nil).symm⟩
  · refine ⟨fun q hq => ?_, fun q => makeAll_frame tree _ q⟩
    split at hq
    · exact hmissing q hq
    · exact hmissing q (List.mem_of_mem_take hq)

theorem copyFile_cases (source target : Path) :
    (copyFile luck tree source target).1 = tree ∧
      (copyFile luck tree source target).2.1 = [] ∨
    writable tree target = true ∧ (copyFile luck tree source target).2.1 = [target] ∧
      ∃ content, (copyFile luck tree source target).1 = tree.set target (.file content) := by
  unfold copyFile
  split
  · split_ifs with hrefused
    · exact Or.inl ⟨rfl, rfl⟩
    · have hw : writable tree target = true := not_not.mp (not_or.mp hrefused).2
      split
      · exact Or.inl ⟨rfl, rfl⟩
      · exact Or.inr ⟨hw, rfl, _, rfl⟩
      · exact Or.inr ⟨hw, rfl, _, rfl⟩
  · exact Or.inl ⟨rfl, rfl⟩

theorem writable_spec {p : Path} (h : writable tree p = true) :
    tree p.dropLast = some .dir ∧ tree p ≠ some .dir := by
  have := of_decide_eq_true h
  exact this.2

end frames

namespace FirmwareStore

variable (st : FirmwareStore)

/-- A file system in which the root stands. -/
structure Sound (tree : Tree) : Prop where
  rooted : st.Rooted tree
  closed : Closed tree

variable {st} {luck : Luck} {tree : Tree} {id : Text}

theorem rooted_congr {tree' : Tree} (h : st.Rooted tree)
    (heq : ∀ q, q <+: st.root → tree' q = tree q) : st.Rooted tree' :=
  fun q hq => (heq q hq).trans (h q hq)

/-- Nothing below the directory of an id is a part of the root. -/
theorem not_prefix_root {q : Path} (h : st.root ++ [id] <+: q) : ¬q <+: st.root := by
  intro hq
  have := (h.trans hq).length_le
  simp at this

/-- Below a sound root, only the directory of the id itself can be missing. -/
theorem create_entry (luck : Luck) (id : Text) (h : st.Sound tree) :
    let made := (createDirectories luck tree (st.root ++ [id])).2.1
    let tree' := (createDirectories luck tree (st.root ++ [id])).1
    (∀ q ∈ made, q = st.root ++ [id]) ∧ (tree' = tree ∧ made = [] ∨
      tree (st.root ++ [id]) = none ∧ st.root ++ [id] ∈ made ∧
        tree' = tree.set (st.root ++ [id]) .dir) := by
  intro made tree'
  obtain ⟨hmade, hframe⟩ := createDirectories_frame luck tree (st.root ++ [id])
  have hall : ∀ q ∈ made, q = st.root ++ [id] := by
    intro q hq
    obtain ⟨habove, hnone⟩ := hmade q hq
    rcases List.prefix_concat_iff.mp habove with heq | hroot
    · exact heq
    · exact absurd (h.rooted q hroot) (by simp [hnone])
  refine ⟨hall, ?_⟩
  by_cases hnil : made = []
  · refine Or.inl ⟨funext fun q => ?_, hnil⟩
    apply (hframe q).trans
    apply if_neg
    intro hq
    exact absurd hq (List.eq_nil_iff_forall_not_mem.mp hnil q)
  · obtain ⟨q, hq⟩ := List.exists_mem_of_ne_nil made hnil
    obtain rfl := hall q hq
    refine Or.inr ⟨(hmade _ hq).2, hq, funext fun q => (hframe q).trans ?_⟩
    by_cases hin : q = st.root ++ [id]
    · subst hin
      rw [if_pos hq, set_same]
    · rw [if_neg fun hq' => hin (hall q hq'), set_other tree _ hin]

/-- From `before` to `after`, nothing but the touched paths changed, all in the directory of `id`. -/
structure Within (st : FirmwareStore) (id : Text) (before : Tree) (touched : List Path)
    (after : Tree) : Prop where
  sound : st.Sound after
  below : ∀ p ∈ touched, st.root ++ [id] <+: p
  same : ∀ p ∉ touched, after p = before p

theorem Within.refl (h : st.Sound tree) : st.Within id tree [] tree :=
  ⟨h, fun _ hp => absurd hp List.not_mem_nil, fun _ _ => rfl⟩

theorem Within.trans {t₁ t₂ t₃ : Tree} {p₁ p₂ : List Path} (h₁ : st.Within id t₁ p₁ t₂)
    (h₂ : st.Within id t₂ p₂ t₃) : st.Within id t₁ (p₁ ++ p₂) t₃ := by
  refine ⟨h₂.sound, fun p hp => ?_, fun p hp => ?_⟩
  · exact (List.mem_append.mp hp).elim (h₁.below p) (h₂.below p)
  · obtain ⟨hp₁, hp₂⟩ := not_or.mp (List.mem_append.not.mp hp)
    exact (h₂.same p hp₂).trans (h₁.same p hp₁)

theorem within_set (id : Text) (h : st.Sound tree) {p : Path} {name : Text} {n : Node}
    (hp : st.root ++ [id] <+: p ++ [name]) (hparent : tree p = some .dir)
    (hn : n = .dir ∨ tree (p ++ [name]) ≠ some .dir) :
    st.Within id tree [p ++ [name]] (tree.set (p ++ [name]) n) := by
  refine ⟨⟨?_, closed_set h.closed hparent hn⟩, fun q hq => ?_, fun q hq => ?_⟩
  · refine rooted_congr h.rooted fun q hq => set_other tree n ?_
    rintro rfl
    exact not_prefix_root hp hq
  · rw [List.mem_singleton.mp hq]
    exact hp
  · exact set_other tree n (List.mem_singleton.not.mp hq)

theorem within_file (h : st.Sound tree) {name : Text} (content : Text)
    (hw : writable tree (st.root ++ [id] ++ [name]) = true) :
    st.Within id tree [st.root ++ [id] ++ [name]]
      (tree.set (st.root ++ [id] ++ [name]) (.file content)) := by
  obtain ⟨hparent, hdir⟩ := writable_spec tree hw
  rw [List.dropLast_concat] at hparent
  exact within_set id h (List.prefix_append _ _) hparent (Or.inr hdir)

theorem create_within (luck : Luck) (id : Text) (h : st.Sound tree) :
    st.Within id tree (createDirectories luck tree (st.root ++ [id])).2.1
      (createDirectories luck tree (st.root ++ [id])).1 := by
  obtain ⟨hall, hsame | ⟨-, hin, hset⟩⟩ := create_entry luck id h
  · rw [hsame.1, hsame.2]
    exact Within.refl h
  · have hroot : tree st.root = some .dir := h.rooted _ (List.prefix_refl _)
    have hw := within_set id h (List.prefix_refl _) hroot (Or.inl rfl)
    rw [hset]
    refine ⟨hw.sound, fun p hp => ?_, fun p hp => ?_⟩
    · rw [hall p hp]
    · exact hw.same p fun hp' => hp (List.mem_singleton.mp hp' ▸ hin)

theorem copy_within (luck : Luck) (id : Text) (h : st.Sound tree) (source : Path) :
    st.Within id tree (copyFile luck tree source (st.imagePath id)).2.1
      (copyFile luck tree source (st.imagePath id)).1 := by
  rcases copyFile_cases luck tree source (st.imagePath id) with ⟨ht, hp⟩ | ⟨hw, hp, content, ht⟩
  · rw [ht, hp]
    exact Within.refl h
  · rw [ht, hp]
    exact within_file h content hw

/-- What a registration leaves behind: at most a directory that was missing, and an image. -/
def Unseen (st : FirmwareStore) (id : Text) (before after : Tree) : Prop :=
  ∀ p, after p = before p ∨ p = st.imagePath id ∨
    p = st.root ++ [id] ∧ before p = none ∧ after p = some .dir

theorem create_unseen (luck : Luck) (id : Text) (h : st.Sound tree) :
    st.Unseen id tree (createDirectories luck tree (st.root ++ [id])).1 := by
  intro p
  obtain ⟨-, hsame | ⟨hnone, -, hset⟩⟩ := create_entry luck id h
  · exact Or.inl (by rw [hsame.1])
  · by_cases hp : p = st.root ++ [id]
    · subst hp
      exact Or.inr (Or.inr ⟨rfl, hnone, by rw [hset, set_same]⟩)
    · exact Or.inl (by rw [hset, set_other tree _ hp])

theorem copy_unseen (luck : Luck) {tree' : Tree} (h : st.Unseen id tree tree') (source : Path) :
    st.Unseen id tree (copyFile luck tree' source (st.imagePath id)).1 := by
  intro p
  rcases copyFile_cases luck tree' source (st.imagePath id) with ⟨ht, -⟩ | ⟨-, -, content, ht⟩
  · rw [ht]
    exact h p
  · by_cases hp : p = st.imagePath id
    · exact Or.inr (Or.inl hp)
    · rw [ht, set_other tree' _ hp]
      exact h p

/-- Everything an installation can have done, stage by stage. -/
theorem install_spec (luck : Luck) (h : st.Sound tree) {m : OtaManifest} (hid : IsEntry m.firmwareId)
    (imageSource : Text) :
    ∃ touched : List Path, (st.install luck tree m imageSource).2.touched = (· ∈ touched) ∧
      st.Within m.firmwareId tree touched (st.install luck tree m imageSource).1 ∧
      ((∃ e, (st.install luck tree m imageSource).2.result = .error e) →
        st.Unseen m.firmwareId tree (st.install luck tree m imageSource).1) := by
  have hcreate := create_within luck m.firmwareId h
  have hseen := create_unseen luck m.firmwareId h
  simp only [install, st.place_dir hid, st.place_image hid, st.place_manifest_entry hid]
  generalize createDirectories luck tree (st.root ++ [m.firmwareId]) = made at hcreate hseen ⊢
  obtain ⟨tree₁, made, created⟩ := made
  have hcopy := copy_within luck m.firmwareId hcreate.sound (st.place imageSource)
  have hseen' := copy_unseen luck hseen (st.place imageSource)
  simp only at hcopy hseen' ⊢
  generalize copyFile luck tree₁ (st.place imageSource) (st.imagePath m.firmwareId) = copied
    at hcopy hseen' ⊢
  obtain ⟨tree₂, copied, done⟩ := copied
  have hboth := hcreate.trans hcopy
  split_ifs with hc hd hw
  · refine ⟨_, rfl, hboth.trans ?_, fun herr => ?_⟩
    · exact within_file hboth.sound _ hw.2
    · obtain ⟨e, he⟩ := herr
      cases he
  · exact ⟨_, rfl, hboth, fun _ => hseen'⟩
  · exact ⟨_, rfl, hboth, fun _ => hseen'⟩
  · exact ⟨_, rfl, hcreate, fun _ => hseen⟩

theorem get_congr {tree' : Tree} (h : tree' (st.place (st.manifestText id)) =
    tree (st.place (st.manifestText id))) : st.get tree' id = st.get tree id := by
  simp only [get, loadManifestFile, h]

theorem parse_nothing : ∃ e, parseManifestText [] = .error e := ⟨_, rfl⟩

theorem get_unseen {tree' : Tree} (h : st.Unseen id tree tree') {other : Text} (hother : 0 ∉ other) :
    st.get tree' other = st.get tree other := by
  have hplace := st.place_manifest hother
  rcases h (st.place (st.manifestText other)) with hsame | himage | ⟨-, hnone, hdir⟩
  · exact get_congr hsame
  · rw [hplace, imagePath] at himage
    have := (List.append_inj' himage rfl).2
    exact absurd this (by decide +kernel)
  · -- a manifest that is a fresh directory reads as an empty file
    obtain ⟨e, he⟩ := parse_nothing
    simp only [get, loadManifestFile, hnone, hdir, he]

theorem mem_list {names : List Text} (h : st.Lists tree names) (r : FirmwareRecord) :
    r ∈ st.list tree names ↔
      ∃ name, IsEntry name ∧ tree (st.root ++ [name]) = some .dir ∧ st.get tree name = some r := by
  rw [list, List.mem_filterMap]
  constructor
  · rintro ⟨name, hname, hr⟩
    obtain ⟨hentry, -⟩ := (h name).mp hname
    rw [st.place_dir hentry] at hr
    split_ifs at hr with hdir
    exact ⟨name, hentry, hdir, hr⟩
  · rintro ⟨name, hentry, hdir, hr⟩
    refine ⟨name, (h name).mpr ⟨hentry, by rw [hdir]; simp⟩, ?_⟩
    rw [st.place_dir hentry, if_pos hdir, hr]

/-- A firmware that can be looked up is in a directory. -/
theorem get_dir (h : Closed tree) (hid : IsEntry id) {r : FirmwareRecord}
    (hr : st.get tree id = some r) : tree (st.root ++ [id]) = some .dir := by
  apply h _ (ascii "manifest.json")
  intro hnone
  have hplace : tree (st.place (st.manifestText id)) = none := by
    rw [st.place_manifest_entry hid, manifestPath]
    exact hnone
  simp only [get, loadManifestFile, hplace] at hr
  cases hr

theorem list_unseen {tree' : Tree} (h : st.Unseen id tree tree') (hs : Closed tree)
    (hs' : Closed tree') {names names' : List Text} (hn : st.Lists tree names)
    (hn' : st.Lists tree' names') (r : FirmwareRecord) :
    r ∈ st.list tree' names' ↔ r ∈ st.list tree names := by
  rw [mem_list hn', mem_list hn]
  constructor
  · rintro ⟨name, hentry, -, hr⟩
    rw [get_unseen h hentry.noZero] at hr
    exact ⟨name, hentry, get_dir hs hentry hr, hr⟩
  · rintro ⟨name, hentry, -, hr⟩
    rw [← get_unseen h hentry.noZero] at hr
    exact ⟨name, hentry, get_dir hs' hentry hr, hr⟩

theorem remove_within (luck : Luck) (h : st.Sound tree) (hid : IsEntry id) :
    st.Sound (st.remove luck tree id).1 ∧
    (∀ p, (st.remove luck tree id).2.touched p = true → st.root ++ [id] <+: p) ∧
    ∀ p, (st.remove luck tree id).2.touched p = false → (st.remove luck tree id).1 p = tree p := by
  simp only [remove, st.place_dir hid]
  have hgone : ∀ p, removable luck tree (st.root ++ [id]) p = true → st.root ++ [id] <+: p := by
    intro p hp
    exact (of_decide_eq_true hp).1
  refine ⟨⟨?_, ?_⟩, hgone, fun p hp => by simp [hp]⟩
  · apply rooted_congr h.rooted
    intro q hq
    exact if_neg fun hgone' => not_prefix_root (hgone q hgone') hq
  · intro p name hp
    have hstays : removable luck tree (st.root ++ [id]) (p ++ [name]) = false := by
      by_contra hgone'
      exact hp (if_pos (Bool.eq_true_of_not_eq_false hgone'))
    simp only [hstays, Bool.false_eq_true, if_false] at hp
    refine (if_neg fun hgone' => ?_).trans (h.closed p name hp)
    -- with the directory everything in it would have gone
    obtain ⟨hbelow, -, hstuck⟩ := of_decide_eq_true hgone'
    refine of_decide_eq_false hstays ⟨hbelow.trans (List.prefix_append _ _), hp, ?_⟩
    exact fun r hr hpre => hstuck r hr ((List.prefix_append _ _).trans hpre)

theorem get_outside {tree' : Tree} (h : ∀ p, ¬st.root ++ [id] <+: p → tree' p = tree p)
    {other : Text} (hother : IsEntry other) (hne : other ≠ id) :
    st.get tree' other = st.get tree other ∧
      ∀ p, st.root ++ [other] <+: p → tree' p = tree p := by
  have hpath : ∀ p, st.root ++ [other] <+: p → tree' p = tree p := by
    intro p hp
    apply h
    intro hid
    have hlength : (st.root ++ [other]).length = (st.root ++ [id]).length := by simp
    have heq : st.root ++ [other] = st.root ++ [id] :=
      (List.prefix_of_prefix_length_le hp hid hlength.le).eq_of_length hlength
    exact hne (List.singleton_inj.mp (List.append_cancel_left heq))
  refine ⟨get_congr (hpath _ ?_), hpath⟩
  rw [st.place_manifest_entry hother, manifestPath]
  exact List.prefix_append _ _

theorem contained_of {e : Call × Luck} (hid : IsEntry id) (hof : st.idOf tree e = some id)
    (hbelow : ∀ p, (st.step tree e).2.touched p = true → st.root ++ [id] <+: p)
    (hsame : ∀ p, (st.step tree e).2.touched p = false → (st.step tree e).1 p = tree p)
    (hrefused : ∀ manifestPath imagePath err text, e.1 = .register manifestPath imagePath err →
      (st.step tree e).2.result = .error text →
      Closed tree ∧ Closed (st.step tree e).1 ∧ st.Unseen id tree (st.step tree e).1) :
    st.Contained tree e := by
  have houtside : ∀ p, ¬st.root ++ [id] <+: p → (st.step tree e).1 p = tree p := by
    intro p hp
    exact hsame p (Bool.eq_false_iff.mpr fun ht => hp (hbelow p ht))
  refine ⟨fun p hp => ⟨id, hof, hid, hbelow p hp⟩, hsame, fun other hother hne => ?_, ?_⟩
  · exact get_outside houtside hother fun heq => hne (heq ▸ hof)
  · intro manifestPath imagePath err text hcall herr
    obtain ⟨hclosed, hclosed', hunseen⟩ := hrefused manifestPath imagePath err text hcall herr
    exact ⟨fun other hother => get_unseen hunseen hother,
      fun names names' hn hn' r => list_unseen hunseen hclosed hclosed' hn hn' r⟩

/-- What a call with the name of an entry keeps. -/
theorem step_contained (h : st.Sound tree) {e : Call × Luck} (hnamed : st.Named tree e) :
    st.Sound (st.step tree e).1 ∧ st.Contained tree e := by
  obtain ⟨call, luck⟩ := e
  cases call with
  | remove id =>
    have hid : IsEntry id := hnamed id rfl
    obtain ⟨hsound, hbelow, hsame⟩ := remove_within luck h hid
    refine ⟨hsound, contained_of hid rfl hbelow hsame ?_⟩
    rintro manifestPath imagePath err text hcall
    cases hcall
  | register manifestPath imagePath err =>
    -- a refusal by the checks touches nothing; past them the id of the manifest counts
    cases hcheck : st.check luck tree manifestPath imagePath err with
    | error text =>
      have hstep : st.step tree (.register manifestPath imagePath err, luck) =
          failed tree [] text := by
        simp only [step, registerFirmware, hcheck]
      have hof : st.idOf tree (.register manifestPath imagePath err, luck) = none := by
        simp only [idOf, hcheck]
      refine ⟨by rw [hstep]; exact h, ?_⟩
      constructor <;> simp only [hstep, failed]
      · simp
      · simp
      · simp
      · intro _ _ _ _ _ _
        exact ⟨fun _ _ => trivial, fun names names' hn hn' r => by rw [mem_list hn, mem_list hn']⟩
    | ok m =>
      have hstep : st.step tree (.register manifestPath imagePath err, luck) =
          st.install luck tree m imagePath := by
        simp only [step, registerFirmware, hcheck]
      have hof : st.idOf tree (.register manifestPath imagePath err, luck) =
          some m.firmwareId := by
        simp only [idOf, hcheck]
      have hid : IsEntry m.firmwareId := hnamed _ hof
      obtain ⟨touched, htouched, hwithin, hunseen⟩ := install_spec luck h hid imagePath
      rw [hstep]
      refine ⟨hwithin.sound, contained_of hid hof ?_ ?_ ?_⟩
      · intro p hp
        rw [hstep, htouched] at hp
        exact hwithin.below p (of_decide_eq_true hp)
      · intro p hp
        rw [hstep, htouched] at hp
        rw [hstep]
        exact hwithin.same p (of_decide_eq_false hp)
      · intro _ _ _ text _ herr
        rw [hstep] at herr ⊢
        exact ⟨h.closed, hwithin.sound.closed, hunseen ⟨text, herr⟩⟩

theorem check_ok {manifestPath imagePath err : Text} {m : OtaManifest}
    (h : st.check luck tree manifestPath imagePath err = .ok m) :
    ∃ text, parseManifestText text = .ok m := by
  have hload : st.loadManifestFile tree luck.manifestOpens manifestPath = .ok m := by
    cases hm : st.loadManifestFile tree luck.manifestOpens manifestPath with
    | error e =>
      simp only [check, hm] at h
      cases h
    | ok n =>
      simp only [check, hm] at h
      split at h
      · split_ifs at h
        exact h
      · cases h
  unfold loadManifestFile at hload
  split at hload
  · exact ⟨_, hload⟩
  · exact ⟨_, hload⟩
  · cases hload

theorem install_ok {m : OtaManifest} {imagePath : Text}
    (h : (st.install luck tree m imagePath).2.result = .ok ()) (hw : luck.written = none) :
    (st.install luck tree m imagePath).1 (st.place (st.manifestText m.firmwareId)) =
      some (.file (manifestToJson m)) := by
  revert h
  unfold install
  simp only [hw]
  split_ifs
  · exact fun _ => set_same _ _ _
  · exact fun h => nomatch h
  · exact fun h => nomatch h
  · exact fun h => nomatch h

/-- After a registration the manifest file holds what was written. -/
theorem registered_get {manifestPath imagePath err : Text} {m : OtaManifest}
    (hcheck : st.check luck tree manifestPath imagePath err = .ok m) (hw : luck.written = none)
    (hok : (st.registerFirmware luck tree manifestPath imagePath err).2.result = .ok ()) :
    st.get (st.registerFirmware luck tree manifestPath imagePath err).1 m.firmwareId =
      match parseManifestText (manifestToJson m) with
      | .error _ => none
      | .ok n => some ⟨n, st.dirText m.firmwareId, st.imageText m.firmwareId⟩ := by
  simp only [registerFirmware, hcheck] at hok ⊢
  simp only [get, loadManifestFile, install_ok hok hw]

end FirmwareStore

def shelfManifest : OtaManifest :=
  ⟨ascii "fw-1", ascii "node", ascii "1.0", ascii "app.bin", 0, [], [], [], 0, 0, [], [ascii "ota"]⟩

def shelf : FirmwareStore := ⟨[], ascii "fw", by decide +kernel⟩

def shelfTree : Tree := fun p =>
  if p = [] ∨ p = [ascii "fw"] then some .dir
  else if p = [ascii "m.json"] then some (.file (manifestToJson shelfManifest))
  else if p = [ascii "new.bin"] then some (.file [])
  else none

theorem shelfManifest_oneLine : shelfManifest.OneLine := ⟨by decide +kernel, by decide +kernel⟩

theorem shelfManifest_plain : shelfManifest.Plain := ⟨by decide +kernel, by decide +kernel⟩

theorem shelf_root : shelf.root = [ascii "fw"] := by decide +kernel

theorem shelf_sound : shelf.Sound shelfTree := by
  constructor
  · intro q hq
    rw [shelf_root] at hq
    have hcases : q = [] ∨ q = [ascii "fw"] := by
      have hq' : q <+: [] ++ [ascii "fw"] := hq
      rcases List.prefix_concat_iff.mp hq' with h | h
      · exact Or.inr h
      · exact Or.inl (List.prefix_nil.mp h)
    exact if_pos hcases
  · intro p name hp
    have hnil : p = [] := by
      by_contra hne
      obtain ⟨b, t, rfl⟩ := List.exists_cons_of_ne_nil hne
      simp [shelfTree] at hp
    rw [hnil]
    rfl

theorem shelf_check : shelf.check .fair shelfTree (ascii "m.json") (ascii "new.bin") [] =
    .ok shelfManifest := by
  have hplace : shelf.place (ascii "m.json") = [ascii "m.json"] := by decide +kernel
  have himage : shelf.fileAt shelfTree (ascii "new.bin") = some [] := by decide +kernel
  have hfile : shelfTree [ascii "m.json"] = some (.file (manifestToJson shelfManifest)) := by
    have : ascii "m.json" ≠ ascii "fw" := by decide +kernel
    simp [shelfTree, this]
  have hload : shelf.loadManifestFile shelfTree true (ascii "m.json") = .ok shelfManifest := by
    simp only [FirmwareStore.loadManifestFile, hplace, hfile]
    exact (parse_written_iff shelfManifest_oneLine.features).mpr shelfManifest_plain
  simp only [FirmwareStore.check, Luck.fair, hload, himage]
  rfl

theorem shelf_registers : (shelf.registerFirmware .fair shelfTree (ascii "m.json")
    (ascii "new.bin") []).2.result = .ok () := by
  simp only [FirmwareStore.registerFirmware, shelf_check]
  decide +kernel

namespace FirmwareStore

theorem manifest_round_trip (m : OtaManifest) :
    (m.OneLine → (parseManifestText (manifestToJson m) = .ok m ↔ m.Plain)) ∧
    ∀ (st : FirmwareStore) (luck : Luck) (tree : Tree) (manifestPath imagePath err : Text),
      luck.written = none →
      st.check luck tree manifestPath imagePath err = .ok m →
      (st.registerFirmware luck tree manifestPath imagePath err).2.result = .ok () →
      ((st.get (st.registerFirmware luck tree manifestPath imagePath err).1 m.firmwareId).map
        (·.manifest) = some m ↔ m.Plain) := by
  refine ⟨fun h => parse_written_iff h.features, ?_⟩
  intro st luck tree manifestPath imagePath err hw hcheck hok
  obtain ⟨text, htext⟩ := check_ok hcheck
  have hfeatures : ∀ f ∈ m.features, f ≠ [] ∧ 0x0A ∉ f := by
    intro f hf
    obtain ⟨hne, -, -, hline, -⟩ := (parse_unbroken htext).features f hf
    exact ⟨hne, hline⟩
  rw [registered_get hcheck hw hok, ← parse_written_iff hfeatures]
  cases parseManifestText (manifestToJson m) with
  | error e => simp
  | ok n => simp

theorem shelf_round_trip :
    parseManifestText (manifestToJson shelfManifest) = .ok shelfManifest ∧
    (shelf.get (shelf.registerFirmware .fair shelfTree (ascii "m.json") (ascii "new.bin") []).1
      (ascii "fw-1")).map (·.manifest) = some shelfManifest :=
  ⟨((manifest_round_trip shelfManifest).1 shelfManifest_oneLine).mpr shelfManifest_plain,
    ((manifest_round_trip shelfManifest).2 shelf .fair shelfTree _ _ _ rfl shelf_check
      shelf_registers).mpr shelfManifest_plain⟩

/-- A version that names a quoted build. -/
def quotedManifest : OtaManifest := { shelfManifest with version := ascii "1.0 \"beta\"" }

theorem quoted_not_read :
    ¬∀ m : OtaManifest, m.OneLine → parseManifestText (manifestToJson m) = .ok m := by
  intro h
  have hline : quotedManifest.OneLine := ⟨by decide +kernel, by decide +kernel⟩
  have hplain := (parse_written_iff hline.features).mp (h quotedManifest hline)
  exact absurd (hplain.texts (ascii "1.0 \"beta\"") (by decide +kernel)).1 (by decide +kernel)

open Machine

/-- As long as every id is the name of a directory entry, the store stays below its root. -/
theorem store_contained (st : FirmwareStore) {tree : Tree} (h : st.Sound tree)
    (calls : List (Call × Luck)) (hnamed : Always st.step st.Named tree calls) :
    Always st.step st.Contained tree calls :=
  Always.of_invariant (I := st.Sound) (fun _ _ hs hn => step_contained hs hn) h hnamed

def shelfCalls : List (Call × Luck) :=
  [(.register (ascii "m.json") (ascii "new.bin") [], .fair), (.remove (ascii "fw-1"), .fair)]

theorem shelf_contained : Always shelf.step shelf.Contained shelfTree shelfCalls := by
  apply store_contained shelf shelf_sound
  refine ⟨fun id hid => ?_, fun id hid => ?_, trivial⟩
  · simp only [idOf, shelf_check, Option.some.injEq] at hid
    rw [← hid]
    decide +kernel
  · obtain rfl := Option.some.inj hid
    decide +kernel

/-- Removing the empty id removes the root. -/
theorem empty_id_escapes : ¬∀ (st : FirmwareStore) (tree : Tree), st.Sound tree →
    ∀ calls : List (Call × Luck), Always st.step st.Contained tree calls := by
  intro h
  have hcontained : shelf.Contained shelfTree (.remove [], .fair) :=
    (h shelf shelfTree shelf_sound [(.remove [], .fair)]).1
  have htouched : (shelf.step shelfTree (.remove [], .fair)).2.touched shelf.root = true := by
    decide +kernel
  obtain ⟨id, hid, hentry, -⟩ := hcontained.below _ htouched
  exact hentry.nonempty (Option.some.inj hid).symm

end FirmwareStore

end EdgeLink.Firmware
