import EdgeLink.Resync

namespace EdgeLink.Gateway
open LittleEndian

def GW_TX_FRAME_MAX_SIZE : ℕ := 96

/-- LEN counts the type and the payload, the CRC covers them and LEN. -/
def wireFrame (type : UInt8) (payload : Bytes) : Bytes :=
  let body := UInt8.ofNat (payload.length + 1) :: type :: payload
  0xAA :: 0x55 :: body ++ bytes16 (crc16Modbus body)

/-- The frame that the device hands to its UART, or nothing when it would not fit. -/
def gwSendFrame (type : UInt8) (payload : Bytes) : Option Bytes :=
  if GW_TX_FRAME_MAX_SIZE - 5 < payload.length + 1 then none else some (wireFrame type payload)

def buildReportAckFrame (device_id : UInt8) (report_seq : UInt32) : Bytes :=
  wireFrame FrameType.reportAck.wire (device_id :: bytes32 report_seq)

section Frame
variable (type : UInt8) (payload : Bytes)

theorem wireFrame_length : (wireFrame type payload).length = payload.length + 6 := by
  simp [wireFrame]

theorem wireFrame_front : wireFrame type payload =
    [0xAA, 0x55, UInt8.ofNat (payload.length + 1), type] ++ payload ++
      bytes16 (crc16Modbus (UInt8.ofNat (payload.length + 1) :: type :: payload)) := rfl

variable {payload}

theorem wireFrame_size (h : payload.length < 255) :
    frameSize (wireFrame type payload) = payload.length + 6 := by
  show (UInt8.ofNat (payload.length + 1)).toNat + 5 = _
  rw [UInt8.toNat_ofNat']
  omega

theorem wireFrame_isHeader {maxLen : ℕ} (h : payload.length < 255) (hmax : payload.length < maxLen) :
    IsHeader maxLen (wireFrame type payload) := by
  have hlen : ((wireFrame type payload).getD 2 0).toNat = payload.length + 1 := by
    show (UInt8.ofNat (payload.length + 1)).toNat = _
    rw [UInt8.toNat_ofNat']
    omega
  exact ⟨rfl, rfl, by omega, by omega⟩

theorem wireFrame_crcOk (h : payload.length < 255) : CrcOk (wireFrame type payload) := by
  unfold CrcOk
  rw [wireFrame_size type h]
  have hbody : ((wireFrame type payload).drop 2).take (payload.length + 6 - 4) =
      UInt8.ofNat (payload.length + 1) :: type :: payload := by
    rw [wireFrame_front]
    show (UInt8.ofNat (payload.length + 1) :: type :: (payload ++ _)).take (payload.length + 2) = _
    rw [List.take_succ_cons, List.take_succ_cons, List.take_left]
  -- the checksum stands right behind the payload
  have htail : (wireFrame type payload).drop (payload.length + 6 - 2) =
      bytes16 (crc16Modbus (UInt8.ofNat (payload.length + 1) :: type :: payload)) := by
    rw [wireFrame_front, List.drop_left']
    simp only [List.length_append, List.length_cons, List.length_nil]
    omega
  rw [hbody]
  have hread := read16_head (crc16Modbus (UInt8.ofNat (payload.length + 1) :: type :: payload)) []
  rw [List.append_nil, ← htail] at hread
  rw [← hread]
  simp only [read16, List.getD_eq_getElem?_getD, List.getElem?_drop, Nat.add_zero]

theorem frameOf_wireFrame (h : payload.length < 255) :
    frameOf (wireFrame type payload) = .frame type payload := by
  unfold frameOf
  rw [wireFrame_size type h]
  have hpay : ((wireFrame type payload).drop 4).take (payload.length + 6 - 6) = payload := by
    rw [wireFrame_front]
    exact List.take_left
  rw [hpay]
  rfl

/-- A loop that believes the LEN sees the frame as soon as it is complete. -/
theorem lookFrame_wireFrame {minSize maxLen : ℕ} (hmin : minSize ≤ 6) (h : payload.length < 255)
    (hmax : payload.length < maxLen) :
    lookFrame minSize maxLen (wireFrame type payload) =
      some (payload.length + 6, .frame type payload) := by
  have hlen := wireFrame_length type payload
  have hsize := wireFrame_size type h
  refine lookFrame_some.mpr ⟨by omega, Or.inr ⟨wireFrame_isHeader type h hmax, by omega, ?_⟩⟩
  rw [if_pos (wireFrame_crcOk type h), frameOf_wireFrame type h, hsize]

/-- A frame alone is seen once, and nothing is left. -/
theorem drain_wireFrame {minSize maxLen : ℕ} {hfour : 4 ≤ minSize} (hmin : minSize ≤ 6)
    (h : payload.length < 255) (hmax : payload.length < maxLen) {σ : Type*}
    (f : σ → ℕ × Seen → σ) (x : σ) :
    (frameScanner minSize maxLen hfour).drain f (wireFrame type payload) x =
      ([], f x (payload.length + 6, .frame type payload)) := by
  have hnext : (frameScanner minSize maxLen hfour).next (wireFrame type payload) =
      some (payload.length + 6, .frame type payload) := lookFrame_wireFrame type hmin h hmax
  have hall : (wireFrame type payload).drop (payload.length + 6) = [] :=
    List.drop_of_length_le (wireFrame_length type payload).le
  rw [Scanner.drain_go _ _ _ hnext]
  dsimp only
  rw [hall]
  exact Scanner.drain_stop _ _ _ (Scanner.next_nil _)

/-- Fed to the idle device, a frame is processed once. -/
theorem gw_wireFrame (processed : List (UInt8 × Bytes)) (h : payload.length < GW_FRAME_BUF_SIZE - 5) :
    (wireFrame type payload).foldl gwProcessRxByte ⟨[], processed⟩ =
      ⟨[], processed ++ [(type, payload)]⟩ := by
  have hlt : payload.length < 255 := h.trans (by decide)
  rw [gw_foldl gwParser.next_nil]
  dsimp only
  rw [List.nil_append, gwParser, drain_wireFrame type (by decide) hlt h]
  rfl

/-- The gateway gives out the record of a frame. -/
theorem extract_wireFrame (now : ℕ → UInt64) (counters : ParseCounters) (h : payload.length < 255) :
    ((⟨wireFrame type payload⟩ : FrameParser).extract now counters).2.1.map untimed =
      (parsePayload (frameTypeFromWire type) payload).toList := by
  have hlog : frameParser.log (wireFrame type payload) = [(0, .frame type payload)] := by
    rw [Scanner.log, frameParser, drain_wireFrame type (by decide) h h]
    rfl
  rw [extract_records, hlog]
  cases hrec : parsePayload (frameTypeFromWire type) payload with
  | none => simp [recordOf, hrec]
  | some data => simp [recordOf, hrec]

end Frame

end EdgeLink.Gateway
