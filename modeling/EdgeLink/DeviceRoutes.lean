import EdgeLink.Machine

namespace EdgeLink.Routes
open Machine

structure Session where
  /-- `last_device`, or `device_id`, once there is one -/
  device : Option UInt8

structure Server where
  /-- the open sessions, by file descriptor -/
  sessions : ℕ → Option Session
  /-- `tcp_binary_device_fds_`, or `wifi_device_fds_` -/
  deviceFds : UInt8 → Option ℕ

namespace Server
variable (t : Server) (fd : ℕ) (device_id : UInt8)

def isOpen : Bool := (t.sessions fd).isSome

def accept : Server := { t with sessions := Function.update t.sessions fd (some ⟨none⟩) }

def close : Server := { t with sessions := Function.update t.sessions fd none }

def erase : Server := { t with deviceFds := Function.update t.deviceFds device_id none }

/-- The session notes the device. -/
def note : Server := { t with sessions := Function.update t.sessions fd (some ⟨some device_id⟩) }

def bind : Server :=
  { t.note fd device_id with deviceFds := Function.update t.deviceFds device_id (some fd) }

/-- A timeout and a hangup in `tcpBinaryLoop` erase by device. -/
def reclaim : Server :=
  match t.sessions fd with
  | none => t
  | some session =>
    match session.device with
    | none => t.close fd
    | some d => (t.erase d).close fd

/-- `wifiDeviceServerLoop` looks at the descriptor too. -/
def closeSession : Server :=
  match t.sessions fd with
  | none => t
  | some session =>
    match session.device with
    | none => t.close fd
    | some d => if t.deviceFds d = some fd then (t.erase d).close fd else t.close fd

/-- A new session of a device replaces its old one. -/
def replace : Server :=
  match t.deviceFds device_id with
  | none => t.bind fd device_id
  | some old_fd =>
    if old_fd = fd then t.bind fd device_id else (t.bind fd device_id).closeSession old_fd

end Server

/-- The two loops take their descriptors from one process. -/
structure State where
  tcp : Server
  wifi : Server
  /-- is there an entry in `device_map_`? -/
  known : UInt8 → Bool
  businessMuted : UInt8 → Bool
  lockedTransport : UInt8 → Option String

inductive Event
  | tcpAccept (fd : ℕ)
  /-- `uplink`: the bootloader's; `found` is the device the table yields first for the session, `items`
  are those of the frame -/
  | tcpFrame (fd : ℕ) (uplink : Bool) (found : UInt8) (items : List UInt8)
  | tcpTimeout (fd : ℕ)
  | tcpHangup (fd : ℕ)
  | wifiAccept (fd : ℕ)
  | wifiLine (fd : ℕ) (device_id : UInt8)
  | wifiHangup (fd : ℕ)
  | otaLock (device_id : UInt8) (transport : String)
  | otaUnlock (device_id : UInt8)
  | otaMute (device_id : UInt8)
  | otaUnmute (device_id : UInt8)

namespace State
variable (s : State)

/-- Only a descriptor that is free is given out. -/
def inUse (fd : ℕ) : Bool := s.tcp.isOpen fd || s.wifi.isOpen fd

/-- The items of a frame that are not muted. -/
def tcpItems (session : Session) (items : List UInt8) : List UInt8 :=
  if ∃ d ∈ session.device, s.businessMuted d = true then []
  else items.filter fun d => ¬ s.businessMuted d

def tcpFrame (fd : ℕ) (uplink : Bool) (found : UInt8) (items : List UInt8) : State :=
  match s.tcp.sessions fd with
  | none => s
  | some session =>
    if uplink ∧ session.device.isSome then s
    else if uplink ∧ ∃ d, s.tcp.deviceFds d = some fd then
      if s.tcp.deviceFds found = some fd then { s with tcp := s.tcp.note fd found } else s
    else { s with tcp := (s.tcpItems session items).foldl (fun t d => t.bind fd d) s.tcp }

/-- A session whose device is locked to TCP is not reclaimed. -/
def skipReclaim (fd : ℕ) : Prop :=
  ∃ session ∈ s.tcp.sessions fd, ∃ d ∈ session.device, s.lockedTransport d = some "tcp_binary"

instance (fd : ℕ) : Decidable (s.skipReclaim fd) :=
  inferInstanceAs (Decidable (∃ session ∈ s.tcp.sessions fd, ∃ d ∈ session.device,
    s.lockedTransport d = some "tcp_binary"))

/-- The line of a device that is in the configuration, over an open session. -/
def takesLine (fd : ℕ) (device_id : UInt8) : Bool := s.wifi.isOpen fd && s.known device_id

def step (e : Event) : State × Unit :=
  match e with
  | .tcpAccept fd => (if s.inUse fd then s else { s with tcp := s.tcp.accept fd }, ())
  | .tcpFrame fd uplink found items => (s.tcpFrame fd uplink found items, ())
  | .tcpTimeout fd => (if s.skipReclaim fd then s else { s with tcp := s.tcp.reclaim fd }, ())
  | .tcpHangup fd => ({ s with tcp := s.tcp.reclaim fd }, ())
  | .wifiAccept fd => (if s.inUse fd then s else { s with wifi := s.wifi.accept fd }, ())
  | .wifiLine fd d => (if s.takesLine fd d then { s with wifi := s.wifi.replace fd d } else s, ())
  | .wifiHangup fd => ({ s with wifi := s.wifi.closeSession fd }, ())
  | .otaLock d transport =>
    ({ s with lockedTransport := Function.update s.lockedTransport d (some transport) }, ())
  | .otaUnlock d => ({ s with lockedTransport := Function.update s.lockedTransport d none }, ())
  | .otaMute d => ({ s with businessMuted := Function.update s.businessMuted d true }, ())
  | .otaUnmute d => ({ s with businessMuted := Function.update s.businessMuted d false }, ())

end State

def boot (known : UInt8 → Bool) : State :=
  ⟨⟨fun _ => none, fun _ => none⟩, ⟨fun _ => none, fun _ => none⟩, known, fun _ => false,
    fun _ => none⟩

/-- A session is its descriptor and how often that had been given out. -/
abbrev Latest := UInt8 → Option (ℕ × ℕ)

structure Seen where
  opened : ℕ → ℕ
  tcp : Latest
  wifi : Latest

def Seen.receive (opened : ℕ → ℕ) (fd : ℕ) (latest : Latest) (device_id : UInt8) : Latest :=
  Function.update latest device_id (some (fd, opened fd))

/-- The devices whose data a frame brings. -/
def State.frameBrings (s : State) (fd : ℕ) (uplink : Bool) (items : List UInt8) : List UInt8 :=
  match s.tcp.sessions fd with
  | none => []
  | some session =>
    if uplink ∧ (session.device.isSome ∨ ∃ d, s.tcp.deviceFds d = some fd) then []
    else s.tcpItems session items

def observe (s : State) (g : Seen) (e : Event) (_ : Unit) : Seen :=
  match e with
  | .tcpAccept fd | .wifiAccept fd =>
    if s.inUse fd then g else { g with opened := Function.update g.opened fd (g.opened fd + 1) }
  | .tcpFrame fd uplink _ items =>
    { g with tcp := (s.frameBrings fd uplink items).foldl (Seen.receive g.opened fd) g.tcp }
  | .wifiLine fd d =>
    if s.takesLine fd d then { g with wifi := Seen.receive g.opened fd g.wifi d } else g
  | _ => g

abbrev Watched := State × Seen

def routeStep : Watched → Event → Watched × Unit := watched State.step observe

def start (known : UInt8 → Bool) : Watched :=
  (boot known, ⟨fun _ => 0, fun _ => none, fun _ => none⟩)

structure Server.Live (t : Server) (opened : ℕ → ℕ) (latest : Latest) : Prop where
  /-- an entry refers to an open session, from which the device's data was last received -/
  entry : ∀ d fd, t.deviceFds d = some fd →
    t.isOpen fd = true ∧ latest d = some (fd, opened fd)
  /-- a device whose latest session is open has an entry -/
  routed : ∀ d fd, latest d = some (fd, opened fd) → t.isOpen fd = true →
    (t.deviceFds d).isSome = true

/-- What holds after a step. -/
def RoutesLive (w : Watched) (e : Event) : Prop :=
  (routeStep w e).1.1.tcp.Live (routeStep w e).1.2.opened (routeStep w e).1.2.tcp ∧
    (routeStep w e).1.1.wifi.Live (routeStep w e).1.2.opened (routeStep w e).1.2.wifi

/-- The entries that lead to a session are of its noted device. -/
def Server.Lone (t : Server) (fd : ℕ) : Prop :=
  ∀ session ∈ t.sessions fd, ∀ d, t.deviceFds d = some fd → session.device = some d

/-- The noted device of a session has not moved to another. -/
def Server.Kept (t : Server) (fd : ℕ) : Prop :=
  ∀ session ∈ t.sessions fd, ∀ d ∈ session.device, ∀ fd' ∈ t.deviceFds d, fd' = fd

/-- A session ends, or is replaced, only with entries of its noted device alone, and a TCP session not
after that device has moved on. -/
def Orderly (w : Watched) (e : Event) : Prop :=
  match e with
  | .tcpTimeout fd => w.1.skipReclaim fd ∨ w.1.tcp.Lone fd ∧ w.1.tcp.Kept fd
  | .tcpHangup fd => w.1.tcp.Lone fd ∧ w.1.tcp.Kept fd
  | .wifiHangup fd => w.1.wifi.Lone fd
  | .wifiLine fd d => w.1.takesLine fd d = true → ∀ old_fd ∈ w.1.wifi.deviceFds d, old_fd ≠ fd →
      ∀ session ∈ w.1.wifi.sessions old_fd, ∀ d', d' ≠ d → w.1.wifi.deviceFds d' = some old_fd →
        session.device = some d'
  | _ => True

namespace Server
variable {t : Server} {opened : ℕ → ℕ} {latest : Latest}

theorem isOpen_accept (t : Server) (fd fd' : ℕ) :
    (t.accept fd).isOpen fd' = if fd' = fd then true else t.isOpen fd' := by
  unfold isOpen accept
  by_cases h : fd' = fd <;> simp [h]

theorem isOpen_close (t : Server) (fd fd' : ℕ) :
    (t.close fd).isOpen fd' = if fd' = fd then false else t.isOpen fd' := by
  unfold isOpen close
  by_cases h : fd' = fd <;> simp [h]

theorem isOpen_note {fd : ℕ} (ho : t.isOpen fd = true) (d : UInt8) :
    (t.note fd d).isOpen = t.isOpen := by
  funext fd'
  unfold isOpen at ho ⊢
  unfold note
  by_cases h : fd' = fd
  · subst h
    rw [ho]
    simp
  · simp [h]

theorem Live.congr {t' : Server} (h : t.Live opened latest) (ho : t'.isOpen = t.isOpen)
    (hf : t'.deviceFds = t.deviceFds) : t'.Live opened latest := by
  refine ⟨fun d fd he => ?_, fun d fd hl hop => ?_⟩
  · rw [hf] at he
    rw [ho]
    exact h.entry d fd he
  · rw [ho] at hop
    rw [hf]
    exact h.routed d fd hl hop

theorem Live.entry_iff (h : t.Live opened latest) (d : UInt8) (fd : ℕ) :
    t.deviceFds d = some fd ↔ t.isOpen fd = true ∧ latest d = some (fd, opened fd) := by
  refine ⟨h.entry d fd, fun ⟨ho, hl⟩ => ?_⟩
  obtain ⟨fd', he⟩ := Option.isSome_iff_exists.mp (h.routed d fd hl ho)
  have hl' := (h.entry d fd' he).2
  rw [hl] at hl'
  cases hl'
  exact he

theorem Live.bind (h : t.Live opened latest) {fd : ℕ} (ho : t.isOpen fd = true) (d : UInt8) :
    (t.bind fd d).Live opened (Seen.receive opened fd latest d) := by
  have hopen : (t.bind fd d).isOpen = t.isOpen := isOpen_note ho d
  have hfds : (t.bind fd d).deviceFds = Function.update t.deviceFds d (some fd) := rfl
  refine ⟨fun d' fd' he => ?_, fun d' fd' hl hop => ?_⟩
  · rw [hfds] at he
    rw [hopen]
    unfold Seen.receive
    by_cases hd : d' = d
    · subst hd
      rw [Function.update_self] at he ⊢
      cases he
      exact ⟨ho, rfl⟩
    · rw [Function.update_of_ne hd] at he ⊢
      exact h.entry d' fd' he
  · rw [hopen] at hop
    rw [hfds]
    unfold Seen.receive at hl
    by_cases hd : d' = d
    · subst hd
      rw [Function.update_self]
      rfl
    · rw [Function.update_of_ne hd] at hl ⊢
      exact h.routed d' fd' hl hop

/-- A session ends, and the entries `gone` with it. -/
theorem Live.close_iff (h : t.Live opened latest) {t' : Server} {fd : ℕ} {gone : UInt8 → Prop}
    [DecidablePred gone] (ho : ∀ fd', t'.isOpen fd' = if fd' = fd then false else t.isOpen fd')
    (hf : ∀ d, t'.deviceFds d = if gone d then none else t.deviceFds d) :
    t'.Live opened latest ↔ ∀ d, (t.deviceFds d = some fd → gone d) ∧
      (gone d → ∀ fd', t.deviceFds d = some fd' → fd' = fd) := by
  constructor
  · intro h' d
    refine ⟨fun he => ?_, fun hg fd' he => ?_⟩
    · by_contra hg
      have hop := (h'.entry d fd (by rw [hf, if_neg hg, he])).1
      rw [ho, if_pos rfl] at hop
      cases hop
    · by_contra hne
      obtain ⟨hop, hl⟩ := h.entry d fd' he
      have hsome := h'.routed d fd' hl (by rw [ho, if_neg hne, hop])
      rw [hf, if_pos hg] at hsome
      cases hsome
  · intro hall
    refine ⟨fun d fd' he => ?_, fun d fd' hl hop => ?_⟩
    · rw [hf] at he
      split_ifs at he with hg
      have hne : fd' ≠ fd := by
        rintro rfl
        exact hg ((hall d).1 he)
      rw [ho, if_neg hne]
      exact h.entry d fd' he
    · rw [ho] at hop
      split_ifs at hop with hne
      have he := (h.entry_iff d fd').mpr ⟨hop, hl⟩
      rw [hf, if_neg fun hg => hne ((hall d).2 hg fd' he), he]
      rfl

theorem Live.reclaim_iff (h : t.Live opened latest) (fd : ℕ) :
    (t.reclaim fd).Live opened latest ↔ t.Lone fd ∧ t.Kept fd := by
  cases hs : t.sessions fd with
  | none => simp [reclaim, Lone, Kept, hs, h]
  | some session =>
    have hends : (t.reclaim fd).Live opened latest ↔
        ∀ d, (t.deviceFds d = some fd → session.device = some d) ∧
          (session.device = some d → ∀ fd', t.deviceFds d = some fd' → fd' = fd) := by
      apply h.close_iff
      · intro fd'
        cases hd : session.device <;> simp only [reclaim, hs, hd] <;> exact isOpen_close _ fd fd'
      · intro d
        cases hd : session.device with
        | none => simp [reclaim, hs, hd, close]
        | some d' =>
          by_cases hdd : d' = d
          · subst hdd
            simp [reclaim, hs, hd, close, erase]
          · simp [reclaim, hs, hd, close, erase, hdd, Ne.symm hdd]
    rw [hends]
    constructor
    · intro hall
      refine ⟨fun session' hs' d he => ?_, fun session' hs' d hd fd' he => ?_⟩
      · rw [hs] at hs'
        cases hs'
        exact (hall d).1 he
      · rw [hs] at hs'
        cases hs'
        exact (hall d).2 hd fd' he
    · exact fun hall d => ⟨hall.1 session hs d, hall.2 session hs d⟩

theorem Live.closeSession_iff (h : t.Live opened latest) (fd : ℕ) :
    (t.closeSession fd).Live opened latest ↔ t.Lone fd := by
  cases hs : t.sessions fd with
  | none => simp [closeSession, Lone, hs, h]
  | some session =>
    have hends : (t.closeSession fd).Live opened latest ↔
        ∀ d, (t.deviceFds d = some fd → session.device = some d ∧ t.deviceFds d = some fd) ∧
          (session.device = some d ∧ t.deviceFds d = some fd →
            ∀ fd', t.deviceFds d = some fd' → fd' = fd) := by
      apply h.close_iff
      · intro fd'
        cases hd : session.device with
        | none =>
          simp only [closeSession, hs, hd]
          exact isOpen_close _ fd fd'
        | some d =>
          simp only [closeSession, hs, hd]
          by_cases he : t.deviceFds d = some fd
          · rw [if_pos he]
            exact isOpen_close (t.erase d) fd fd'
          · rw [if_neg he]
            exact isOpen_close t fd fd'
      · intro d
        cases hd : session.device with
        | none => simp [closeSession, hs, hd, close]
        | some d' =>
          simp only [closeSession, hs, hd]
          by_cases hdd : d' = d
          · subst hdd
            by_cases he : t.deviceFds d' = some fd <;> simp [he, close, erase]
          · split_ifs <;> simp_all [close, erase, Ne.symm hdd]
    rw [hends]
    constructor
    · intro hall session' hs' d he
      rw [hs] at hs'
      cases hs'
      exact ((hall d).1 he).1
    · intro hl d
      refine ⟨fun he => ⟨hl session hs d he, he⟩, fun ⟨_, he⟩ fd' he' => ?_⟩
      rw [he] at he'
      exact (Option.some.inj he').symm

theorem Live.replace_iff (h : t.Live opened latest) {fd : ℕ} (ho : t.isOpen fd = true) (d : UInt8) :
    (t.replace fd d).Live opened (Seen.receive opened fd latest d) ↔
      ∀ old_fd ∈ t.deviceFds d, old_fd ≠ fd → ∀ session ∈ t.sessions old_fd,
        ∀ d', d' ≠ d → t.deviceFds d' = some old_fd → session.device = some d' := by
  have hbind := h.bind ho d
  cases he : t.deviceFds d with
  | none => simp [replace, he, hbind]
  | some old_fd =>
    by_cases hne : old_fd = fd
    · simp [replace, he, hne, hbind]
    · have hlone : (t.bind fd d).Lone old_fd ↔ ∀ session ∈ t.sessions old_fd,
          ∀ d', d' ≠ d → t.deviceFds d' = some old_fd → session.device = some d' := by
        have hs : (t.bind fd d).sessions old_fd = t.sessions old_fd := Function.update_of_ne hne ..
        unfold Lone
        rw [hs]
        apply forall₂_congr
        intro session _
        apply forall_congr'
        intro d'
        by_cases hd : d' = d
        · subst hd
          simp [Server.bind, Ne.symm hne]
        · simp [Server.bind, hd]
      rw [replace, he]
      simp only [if_neg hne]
      rw [hbind.closeSession_iff, hlone]
      constructor
      · intro hl old_fd' ho' _
        cases ho'
        exact hl
      · exact fun hl => hl old_fd rfl hne

/-- The items of a frame. -/
theorem Live.foldl_bind (h : t.Live opened latest) {fd : ℕ} (ho : t.isOpen fd = true)
    (items : List UInt8) : (items.foldl (fun t d => t.bind fd d) t).Live opened
      (items.foldl (Seen.receive opened fd) latest) := by
  induction items generalizing t latest with
  | nil => exact h
  | cons d items ih =>
    refine ih (h.bind ho d) ?_
    rw [show (t.bind fd d).isOpen = t.isOpen from isOpen_note ho d, ho]

structure Sound (t : Server) (opened : ℕ → ℕ) (latest : Latest) : Prop extends
    t.Live opened latest where
  past : ∀ d fd n, latest d = some (fd, n) → n ≤ opened fd

/-- A descriptor is given out, to this server or to the other. -/
theorem Sound.opens (h : t.Sound opened latest) (t' : Server) {fd : ℕ} (hfd : t.isOpen fd = false)
    (ho : ∀ fd', fd' ≠ fd → t'.isOpen fd' = t.isOpen fd') (hf : t'.deviceFds = t.deviceFds) :
    t'.Sound (Function.update opened fd (opened fd + 1)) latest := by
  refine ⟨⟨fun d fd' he => ?_, fun d fd' hl hop => ?_⟩, fun d fd' n hl => ?_⟩
  · rw [hf] at he
    obtain ⟨hop, hl⟩ := h.entry d fd' he
    have hne : fd' ≠ fd := by
      rintro rfl
      rw [hfd] at hop
      cases hop
    rw [ho fd' hne, Function.update_of_ne hne]
    exact ⟨hop, hl⟩
  · by_cases hne : fd' = fd
    · subst hne
      rw [Function.update_self] at hl
      exact absurd (h.past d fd' _ hl) (Nat.not_succ_le_self _)
    · rw [Function.update_of_ne hne] at hl
      rw [ho fd' hne] at hop
      rw [hf]
      exact h.routed d fd' hl hop
  · have hle := h.past d fd' n hl
    by_cases hne : fd' = fd
    · subst hne
      rw [Function.update_self]
      exact Nat.le_succ_of_le hle
    · rw [Function.update_of_ne hne]
      exact hle

theorem past_receive (h : ∀ d fd n, latest d = some (fd, n) → n ≤ opened fd) (fd : ℕ) (d : UInt8) :
    ∀ d' fd' n, Seen.receive opened fd latest d d' = some (fd', n) → n ≤ opened fd' := by
  intro d' fd' n hl
  unfold Seen.receive at hl
  by_cases hd : d' = d
  · subst hd
    rw [Function.update_self] at hl
    cases hl
    exact le_rfl
  · rw [Function.update_of_ne hd] at hl
    exact h d' fd' n hl

theorem past_foldl (h : ∀ d fd n, latest d = some (fd, n) → n ≤ opened fd) (fd : ℕ)
    (items : List UInt8) : ∀ d fd' n,
      items.foldl (Seen.receive opened fd) latest d = some (fd', n) → n ≤ opened fd' := by
  induction items generalizing latest with
  | nil => exact h
  | cons d items ih => exact ih (past_receive h fd d)

end Server

structure Sound (w : Watched) : Prop where
  tcp : w.1.tcp.Sound w.2.opened w.2.tcp
  wifi : w.1.wifi.Sound w.2.opened w.2.wifi

/-- A step that keeps to the order, and what follows. -/
def Steps (w : Watched) (e : Event) : Prop :=
  (Orderly w e ↔ RoutesLive w e) ∧ (Orderly w e → Sound (routeStep w e).1)

theorem steps_of_sound {w : Watched} {e : Event} (ho : Orderly w e) (h : Sound (routeStep w e).1) :
    Steps w e :=
  ⟨⟨fun _ => ⟨h.tcp.toLive, h.wifi.toLive⟩, fun _ => ho⟩, fun _ => h⟩

/-- Where only sessions of `tcpBinaryLoop` end. -/
theorem steps_of_tcp {w : Watched} (h : Sound w) {e : Event}
    (hw : (routeStep w e).1.1.wifi = w.1.wifi) (hg : (routeStep w e).1.2 = w.2)
    (hiff : (routeStep w e).1.1.tcp.Live w.2.opened w.2.tcp ↔ Orderly w e) : Steps w e := by
  unfold Steps RoutesLive
  rw [hw, hg]
  refine ⟨⟨fun ho => ⟨hiff.mpr ho, h.wifi.toLive⟩, fun hl => hiff.mp hl.1⟩, fun ho => ⟨?_, ?_⟩⟩
  · rw [hg]
    exact ⟨hiff.mpr ho, h.tcp.past⟩
  · rw [hg, hw]
    exact h.wifi

theorem State.inUse_eq_false {s : State} {fd : ℕ} (h : s.inUse fd = false) :
    s.tcp.isOpen fd = false ∧ s.wifi.isOpen fd = false := by
  unfold State.inUse at h
  simpa using h

theorem tcpFrame_sound {w : Watched} (h : Sound w) (fd : ℕ) (uplink : Bool) (found : UInt8)
    (items : List UInt8) : Sound (routeStep w (.tcpFrame fd uplink found items)).1 := by
  have htcp : (w.1.tcpFrame fd uplink found items).tcp.Sound w.2.opened
      ((w.1.frameBrings fd uplink items).foldl (Seen.receive w.2.opened fd) w.2.tcp) := by
    refine ⟨?_, Server.past_foldl h.tcp.past fd _⟩
    unfold State.tcpFrame State.frameBrings
    cases hs : w.1.tcp.sessions fd with
    | none => exact h.tcp.toLive
    | some session =>
      have hopen : w.1.tcp.isOpen fd = true := by rw [Server.isOpen, hs]; rfl
      dsimp only
      by_cases hu : uplink = true ∧ session.device.isSome = true
      · have hno : uplink = true ∧ (session.device.isSome = true ∨
            ∃ d, w.1.tcp.deviceFds d = some fd) := ⟨hu.1, Or.inl hu.2⟩
        rw [if_pos hu, if_pos hno]
        exact h.tcp.toLive
      · rw [if_neg hu]
        by_cases hf : uplink = true ∧ ∃ d, w.1.tcp.deviceFds d = some fd
        · have hno : uplink = true ∧ (session.device.isSome = true ∨
              ∃ d, w.1.tcp.deviceFds d = some fd) := ⟨hf.1, Or.inr hf.2⟩
          rw [if_pos hf, if_pos hno]
          split_ifs
          · exact h.tcp.toLive.congr (Server.isOpen_note hopen found) rfl
          · exact h.tcp.toLive
        · have hitems : ¬ (uplink = true ∧ (session.device.isSome = true ∨
              ∃ d, w.1.tcp.deviceFds d = some fd)) := by
            rintro ⟨hup, hd | hd⟩
            · exact hu ⟨hup, hd⟩
            · exact hf ⟨hup, hd⟩
          rw [if_neg hf, if_neg hitems]
          exact h.tcp.toLive.foldl_bind hopen _
  have hwifi : (w.1.tcpFrame fd uplink found items).wifi = w.1.wifi := by
    unfold State.tcpFrame
    split
    · rfl
    · split_ifs <;> rfl
  refine ⟨htcp, ?_⟩
  change (w.1.tcpFrame fd uplink found items).wifi.Sound w.2.opened w.2.wifi
  rw [hwifi]
  exact h.wifi

theorem step_routes {w : Watched} (h : Sound w) (e : Event) : Steps w e := by
  cases e with
  | tcpAccept fd =>
    refine steps_of_sound trivial ?_
    cases hu : w.1.inUse fd with
    | true => simpa [routeStep, watched, State.step, observe, hu] using h
    | false =>
      obtain ⟨ht, hw⟩ := State.inUse_eq_false hu
      have htcp := h.tcp.opens (w.1.tcp.accept fd) ht
        (fun fd' hne => by rw [Server.isOpen_accept, if_neg hne]) rfl
      have hwifi := h.wifi.opens w.1.wifi hw (fun _ _ => rfl) rfl
      exact ⟨by simpa [routeStep, watched, State.step, observe, hu] using htcp,
        by simpa [routeStep, watched, State.step, observe, hu] using hwifi⟩
  | wifiAccept fd =>
    refine steps_of_sound trivial ?_
    cases hu : w.1.inUse fd with
    | true => simpa [routeStep, watched, State.step, observe, hu] using h
    | false =>
      obtain ⟨ht, hw⟩ := State.inUse_eq_false hu
      have hwifi := h.wifi.opens (w.1.wifi.accept fd) hw
        (fun fd' hne => by rw [Server.isOpen_accept, if_neg hne]) rfl
      have htcp := h.tcp.opens w.1.tcp ht (fun _ _ => rfl) rfl
      exact ⟨by simpa [routeStep, watched, State.step, observe, hu] using htcp,
        by simpa [routeStep, watched, State.step, observe, hu] using hwifi⟩
  | tcpFrame fd uplink found items =>
    exact steps_of_sound trivial (tcpFrame_sound h fd uplink found items)
  | tcpTimeout fd =>
    by_cases hskip : w.1.skipReclaim fd
    · refine steps_of_sound (Or.inl hskip) ?_
      simpa [routeStep, watched, State.step, observe, hskip] using h
    · have hs : (w.1.step (.tcpTimeout fd)).1 = { w.1 with tcp := w.1.tcp.reclaim fd } := if_neg hskip
      refine steps_of_tcp h ?_ rfl ?_
      · rw [routeStep, watched, hs]
      · rw [routeStep, watched, hs, Orderly, or_iff_right hskip]
        exact h.tcp.reclaim_iff fd
  | tcpHangup fd => exact steps_of_tcp h rfl rfl (h.tcp.reclaim_iff fd)
  | wifiLine fd d =>
    cases ht : w.1.takesLine fd d with
    | false =>
      refine steps_of_sound (fun hn => by rw [ht] at hn; cases hn) ?_
      simpa [routeStep, watched, State.step, observe, ht] using h
    -- the line is taken: the session it came in on becomes the device's route
    | true =>
      have hopen : w.1.wifi.isOpen fd = true := (Bool.and_eq_true_iff.mp ht).1
      have hnext : (routeStep w (.wifiLine fd d)).1 = ({ w.1 with wifi := w.1.wifi.replace fd d },
          { w.2 with wifi := Seen.receive w.2.opened fd w.2.wifi d }) := by
        simp [routeStep, watched, State.step, observe, ht]
      have hiff := h.wifi.replace_iff hopen d
      unfold Steps RoutesLive
      rw [hnext]
      refine ⟨⟨fun ho => ⟨h.tcp.toLive, hiff.mpr (ho ht)⟩, fun hl _ => hiff.mp hl.2⟩,
        fun ho => ⟨h.tcp, hiff.mpr (ho ht), Server.past_receive h.wifi.past fd d⟩⟩
  | wifiHangup fd =>
    have hiff := h.wifi.closeSession_iff fd
    exact ⟨⟨fun ho => ⟨h.tcp.toLive, hiff.mpr ho⟩, fun hl => hiff.mp hl.2⟩,
      fun ho => ⟨h.tcp, hiff.mpr ho, h.wifi.past⟩⟩
  | otaLock d transport => exact steps_of_sound trivial ⟨h.tcp, h.wifi⟩
  | otaUnlock d => exact steps_of_sound trivial ⟨h.tcp, h.wifi⟩
  | otaMute d => exact steps_of_sound trivial ⟨h.tcp, h.wifi⟩
  | otaUnmute d => exact steps_of_sound trivial ⟨h.tcp, h.wifi⟩

theorem start_sound (known : UInt8 → Bool) : Sound (start known) :=
  ⟨⟨⟨nofun, nofun⟩, nofun⟩, ⟨⟨nofun, nofun⟩, nofun⟩⟩

/-- Over every run, the tables point at live sessions exactly as long as sessions end in order. -/
theorem routes_live_iff (known : UInt8 → Bool) (es : List Event) :
    Always routeStep Orderly (start known) es ↔ Always routeStep RoutesLive (start known) es :=
  always_iff_of_invariant (fun _ e hw => (step_routes hw e).2) (fun _ e hw => (step_routes hw e).1)
    (start_sound known)

/-- One TCP session carries two devices, and ends. -/
theorem stale_entry : ¬ ∀ known es, Always routeStep RoutesLive (start known) es := by
  intro h
  have hall := h (fun _ => true) [.tcpAccept 5, .tcpFrame 5 false 0 [1], .tcpFrame 5 false 0 [2],
    .tcpHangup 5]
  have hentry := hall.2.2.2.1.1.entry 1 5 (by decide +kernel)
  exact absurd hentry.1 (by decide +kernel)

end EdgeLink.Routes
