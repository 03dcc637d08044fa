import SdrServer.Msisdr.Session

namespace SdrServer
namespace Msisdr

-- a block together with what it says
structure Filled (format : Format) where
  block : Block
  values : List Int
  carries : Carries format block.payload values

def wire {format : Format} (blocks : List (Filled format)) : List UInt8 :=
  blocks.flatMap fun b => b.block.bytes

def valuesOf {format : Format} (blocks : List (Filled format)) : List Int :=
  blocks.flatMap Filled.values

-- whole blocks, whatever else is in the buffer
inductive Transfer.Holds (format : Format) : Transfer → List Int → Prop
  | bulk (blocks : List (Filled format)) (stale : List UInt8)
    (h : 1024 * blocks.length ≤ defaultBulkBuffer) :
    Holds format (.bulk (wire blocks ++ stale) (1024 * blocks.length)) (valuesOf blocks)
  | isoc (packets : List (List (Filled format) × List UInt8))
    (count : packets.length ≤ defaultIsoPackets)
    (h : ∀ packet ∈ packets, packet.1.length ≤ defaultIsoBuffers) :
    Holds format
      (.isoc (packets.map fun packet => (wire packet.1 ++ packet.2, 1024 * packet.1.length)))
      (packets.flatMap fun packet => valuesOf packet.1)

section Blocks

variable {format : Format}

theorem convertLoop_blocks (h : format ≠ .s8_504) (blocks : List (Filled format))
    (stale : List UInt8) (i : Nat) (addr : UInt32) (p : Stream) :
    (convertLoop (unpackOf format) blocks.length i addr (wire blocks ++ stale) p).1.map Int16.toInt =
      valuesOf blocks := by
  induction blocks generalizing i addr p with
  | nil => rfl
  | cons b blocks ih =>
    have hunpack := b.carries.unpacked h (wire blocks ++ stale)
    rw [wire, List.flatMap_cons, List.append_assoc, List.length_cons, convertLoop]
    dsimp only
    rw [List.map_append, b.block.drop_header, b.block.drop_bytes]
    exact congrArg₂ (· ++ ·) hunpack (ih _ _ _)

theorem packFields_eight {xs : List Int} {count : Nat} (h : xs.length = count) :
    packFields 8 count xs = xs.map fun x => UInt8.ofNat (fieldOf 8 x) := by
  have hsplit := PackedFields.split_word (fields_fit 8 xs)
  rw [List.length_map, h] at hsplit
  rw [packFields, PackedFields.repack, hsplit, List.map_map]
  rfl

theorem ofNat_fieldOf {x : Int} (h : InRange 8 x) :
    (UInt8.ofNat (fieldOf 8 x)).toInt8.toInt = x := by
  have hlt : fieldOf 8 x < 2 ^ 8 := fieldOf_lt 8 x
  have hbmod : Int.bmod (fieldOf 8 x) (2 ^ 8) = x := bmod_fieldOf (by decide) le_rfl h
  rw [Int8.toInt, UInt8.toBitVec_toInt8, BitVec.toInt_eq_toNat_bmod]
  have hnat : (UInt8.ofNat (fieldOf 8 x)).toBitVec.toNat = fieldOf 8 x :=
    UInt8.toNat_ofNat_of_lt' hlt
  rw [hnat]
  exact hbmod

theorem decoded_s8 {payload : List UInt8} {values : List Int} (h : Carries .s8_504 payload values) :
    decoded .s8_504 payload = values := by
  cases h with
  | s8_504 hlen hrange =>
    rw [decoded, packFields_eight hlen, List.map_map, List.map_map]
    exact (List.map_congr_left fun x hx => ofNat_fieldOf (hrange x hx)).trans (List.map_id _)

theorem copyLoop_blocks (blocks : List (Filled .s8_504)) (stale : List UInt8) (addr : UInt32) :
    decoded .s8_504 (copyLoop blocks.length ((wire blocks ++ stale).drop 16) addr).1 =
      valuesOf blocks := by
  induction blocks generalizing addr with
  | nil => rfl
  | cons b blocks ih =>
    have hdrop : (wire (b :: blocks) ++ stale).drop 16 =
        b.block.payload ++ (wire blocks ++ stale) := by
      rw [wire, List.flatMap_cons, List.append_assoc, b.block.drop_header]
      rfl
    have htake : (b.block.payload ++ (wire blocks ++ stale)).take 1008 = b.block.payload :=
      List.take_left' b.block.payload_length
    have hnext : (b.block.payload ++ (wire blocks ++ stale)).drop 1024 =
        (wire blocks ++ stale).drop 16 := by
      rw [show 1024 = 1008 + 16 from rfl, ← List.drop_drop, List.drop_left' b.block.payload_length]
    have hsplit : ∀ xs ys : List UInt8, decoded .s8_504 (xs ++ ys) =
        decoded .s8_504 xs ++ decoded .s8_504 ys := fun xs ys => by simp [decoded]
    rw [hdrop, List.length_cons, copyLoop, htake, hnext]
    dsimp only
    rw [hsplit, ih, decoded_s8 b.carries]
    rfl

-- the samples of whole blocks, at full scale
theorem convert_blocks (blocks : List (Filled format)) (stale : List UInt8) (p : Stream) :
    decoded format (convert format (wire blocks ++ stale) (1024 * blocks.length) p).1 =
      valuesOf blocks := by
  by_cases h : format = .s8_504
  · subst h
    have hrounds : (1024 * blocks.length + 1007) / 1024 = blocks.length := by omega
    rw [convert, samplesConvert504S8]
    dsimp only
    rw [hrounds]
    exact copyLoop_blocks blocks stale _
  · have hloop := convertLoop_blocks h blocks stale 0 0 p
    have hdecoded : decoded format = fun bytes => (littleEndianInt16s bytes).map Int16.toInt := by
      cases format with
      | s8_504 => exact absurd rfl h
      | s16_252 => rfl
      | s16_336 => rfl
      | s16_384 => rfl
      | s16_504 => rfl
    rw [convert_s16 h, samplesConvert, Nat.mul_div_cancel_left _ (by decide), hdecoded]
    dsimp only
    rw [littleEndian_flatMap, hloop]

theorem littleEndian_append {xs : List UInt8} (h : 2 ∣ xs.length) (ys : List UInt8) :
    littleEndianInt16s (xs ++ ys) = littleEndianInt16s xs ++ littleEndianInt16s ys := by
  induction xs using littleEndianInt16s.induct with
  | case1 low high rest ih =>
    have hrest : 2 ∣ rest.length := by
      simp only [List.length_cons] at h
      omega
    rw [List.cons_append, List.cons_append, littleEndianInt16s, littleEndianInt16s, ih hrest,
      List.cons_append]
  | case2 xs hxs =>
    rcases xs with _ | ⟨x, _ | ⟨y, rest⟩⟩
    · rfl
    · simp at h
    · exact absurd rfl (hxs x y rest)

-- samples do not straddle the end of `bytes`
def Whole (format : Format) (bytes : List UInt8) : Prop := format = .s8_504 ∨ 2 ∣ bytes.length

theorem decoded_append {xs : List UInt8} (h : Whole format xs) (ys : List UInt8) :
    decoded format (xs ++ ys) = decoded format xs ++ decoded format ys := by
  cases format with
  | s8_504 => simp [decoded]
  | s16_252 => simp [decoded, littleEndian_append (h.resolve_left (by simp))]
  | s16_336 => simp [decoded, littleEndian_append (h.resolve_left (by simp))]
  | s16_384 => simp [decoded, littleEndian_append (h.resolve_left (by simp))]
  | s16_504 => simp [decoded, littleEndian_append (h.resolve_left (by simp))]

theorem decoded_flatten {pieces : List (List UInt8)} (h : ∀ piece ∈ pieces, Whole format piece)
    (rest : List UInt8) :
    decoded format (pieces.flatten ++ rest) = pieces.flatMap (decoded format) ++ decoded format rest := by
  induction pieces with
  | nil => rfl
  | cons piece pieces ih =>
    rw [List.flatten_cons, List.append_assoc, decoded_append (h piece (by simp)),
      ih fun piece' hpiece => h piece' (by simp [hpiece]), List.flatMap_cons, List.append_assoc]

theorem convert_whole (buf : List UInt8) (cnt : Nat) (p : Stream) :
    Whole format (convert format buf cnt p).1 := by
  by_cases h : format = .s8_504
  · exact Or.inl h
  · refine Or.inr ?_
    rw [convert_s16 h, samplesConvert]
    dsimp only
    rw [int16Bytes_length]
    exact Nat.dvd_mul_right 2 _

theorem whole_append {xs ys : List UInt8} (hx : Whole format xs) (hy : Whole format ys) :
    Whole format (xs ++ ys) := by
  rcases hx with hx | hx
  · exact Or.inl hx
  · refine hy.imp_right fun hy => ?_
    rw [List.length_append]
    exact Nat.dvd_add hx hy

theorem convertPackets_holds (packets : List (List (Filled format) × List UInt8)) (p : Stream) :
    Whole format (convertPackets format
        (packets.map fun packet => (wire packet.1 ++ packet.2, 1024 * packet.1.length)) p).1 ∧
      decoded format (convertPackets format
          (packets.map fun packet => (wire packet.1 ++ packet.2, 1024 * packet.1.length)) p).1 =
        packets.flatMap fun packet => valuesOf packet.1 := by
  have hnil : Whole format [] ∧ decoded format [] = [] :=
    ⟨Or.inr (dvd_zero 2), by cases format <;> rfl⟩
  induction packets generalizing p with
  | nil => exact hnil
  | cons packet packets ih =>
    obtain ⟨blocks, stale⟩ := packet
    have hfirst : ∃ dst q, (if 1024 * blocks.length > 0 then
          convert format (wire blocks ++ stale) (1024 * blocks.length) p else ([], p)) = (dst, q) ∧
        Whole format dst ∧ decoded format dst = valuesOf blocks := by
      split
      · exact ⟨_, _, rfl, convert_whole _ _ _, convert_blocks blocks stale p⟩
      · have hblocks : blocks = [] := List.eq_nil_of_length_eq_zero (by omega)
        exact ⟨_, _, rfl, hnil.1, by rw [hnil.2, hblocks]; rfl⟩
    obtain ⟨dst, q, heq, hwhole, hdecoded⟩ := hfirst
    obtain ⟨hrest, hrestdecoded⟩ := ih q
    rw [List.map_cons, convertPackets, heq]
    dsimp only
    refine ⟨whole_append hwhole hrest, ?_⟩
    rw [decoded_append hwhole, hdecoded, hrestdecoded, List.flatMap_cons]

theorem Transfer.Holds.received {xfer : Transfer} {values : List Int} (h : xfer.Holds format values) :
    xfer.Received := by
  cases h with
  | bulk blocks stale h => exact .bulk h
  | isoc packets count h =>
    refine .isoc (by rwa [List.length_map]) ?_
    intro packet hpacket
    obtain ⟨packet, hmem, rfl⟩ := List.mem_map.mp hpacket
    have hle := h packet hmem
    unfold defaultIsoBuffer
    dsimp only
    omega

theorem Transfer.Holds.converted {xfer : Transfer} {values : List Int} {samples : List UInt8}
    {p q : Stream}
    (h : xfer.Holds p.format values) (hconvert : convertTransfer p xfer = some (samples, q)) :
    Whole p.format samples ∧ decoded p.format samples = values := by
  cases h with
  | bulk blocks stale h =>
    have hformat := (samplesRealloc_converted (defaultBulkBuffer / 1024 * p.format.blockBytes) p).1.format
    rw [convertTransfer, Option.ite_none_right_eq_some] at hconvert
    obtain ⟨-, hsome⟩ := hconvert
    obtain rfl := congrArg Prod.fst (Option.some.inj hsome)
    rw [hformat]
    exact ⟨convert_whole _ _ _, convert_blocks blocks stale _⟩
  | isoc packets count h =>
    have hformat := (samplesRealloc_converted
      (p.format.blockBytes * defaultIsoBuffers * defaultIsoPackets) p).1.format
    rw [convertTransfer, Option.ite_none_right_eq_some] at hconvert
    obtain ⟨-, hsome⟩ := hconvert
    obtain rfl := congrArg Prod.fst (Option.some.inj hsome)
    rw [hformat]
    exact convertPackets_holds packets _

end Blocks

-- the bytes handed on and still to be handed on, one transfer after the other
theorem run_completed {format : Format} {s : Session} (transfers : List (Transfer × List Int))
    (h : ∀ t ∈ transfers, t.1.Holds format t.2) (hs : s.stream.Framed) (hformat : s.stream.format = format)
    (hwhole : Whole format (s.calls.flatten ++ s.stream.pending)) :
    ∃ t, Transition.run Session.step s (transfers.map fun t => .completed t.1) = some t ∧
      t.stream.Framed ∧ t.stream.xferOutLen = s.stream.xferOutLen ∧
      (∀ call ∈ t.calls, call ∈ s.calls ∨ call.length = s.stream.xferOutLen) ∧
      decoded format (t.calls.flatten ++ t.stream.pending) =
        decoded format (s.calls.flatten ++ s.stream.pending) ++ transfers.flatMap Prod.snd := by
  induction transfers generalizing s with
  | nil => exact ⟨s, rfl, hs, rfl, fun call hcall => Or.inl hcall, by simp⟩
  | cons transfer transfers ih =>
    obtain ⟨xfer, values⟩ := transfer
    have hholds : xfer.Holds s.stream.format values := by
      rw [hformat]
      exact h (xfer, values) (by simp)
    obtain ⟨samples, q, calls, r, hconvert, hcompleted, hr⟩ := completed_delivers hs hholds.received
    have hnext := nextLength_converted r xfer
    have hlen := hnext.len.trans hr.converted.2.2
    obtain ⟨hsamples, hvalues⟩ := hholds.converted hconvert
    rw [hformat] at hsamples hvalues
    have hstep : s.step (.completed xfer) = some ⟨(nextLength r xfer).2, s.calls ++ calls⟩ := by
      rw [Session.step, hcompleted]
      rfl
    have hbytes : (s.calls ++ calls).flatten ++ (nextLength r xfer).2.pending =
        s.calls.flatten ++ s.stream.pending ++ samples := by
      rw [hnext.pending, List.flatten_append, List.append_assoc, hr.bytes, List.append_assoc]
    obtain ⟨t, hrun, htframed, htlen, htcalls, htdecoded⟩ :=
      ih (s := ⟨(nextLength r xfer).2, s.calls ++ calls⟩) (fun t ht => h t (by simp [ht]))
        (hnext.framed hr.framed) (hnext.format.trans (hr.converted.1.trans hformat))
        (by dsimp only; rw [hbytes]; exact whole_append hwhole hsamples)
    refine ⟨t, ?_, htframed, htlen.trans hlen, ?_, ?_⟩
    · rw [List.map_cons, Transition.run, hstep]
      exact hrun
    · intro call hcall
      rcases htcalls call hcall with hmem | hcalllen
      · rcases List.mem_append.mp hmem with hmem | hmem
        · exact Or.inl hmem
        · exact Or.inr (hr.whole call hmem)
      · exact Or.inr (hcalllen.trans hlen)
    · rw [htdecoded]
      dsimp only
      rw [hbytes, decoded_append hwhole, hvalues, List.flatMap_cons, List.append_assoc]

-- every sample that the chip sends comes out of the buffers, in order, at full scale
theorem samples_delivered {format : Format} (addr : UInt32) (samplesSize : Nat) (num : UInt32)
    {len : UInt32} (hlen : len ≠ 0) {transfers : List (Transfer × List Int)}
    (h : ∀ t ∈ transfers, t.1.Holds format t.2) :
    ∃ s, Transition.run Session.step (.start (readAsync format addr samplesSize num len))
        (transfers.map fun t => .completed t.1) = some s ∧
      (∀ call ∈ s.calls, call.length = len.toNat) ∧ s.stream.pending.length < len.toNat ∧
      decoded format (s.calls.flatten ++ s.stream.pending) = transfers.flatMap Prod.snd ∧
      (format = .s8_504 ∨ 2 ∣ len.toNat →
        s.calls.flatMap (decoded format) ++ decoded format s.stream.pending =
          transfers.flatMap Prod.snd) := by
  have hframed := readAsync_framed format addr samplesSize num hlen
  obtain ⟨s, hrun, hsframed, hslen, hcalls, hdecoded⟩ :=
    run_completed (s := .start (readAsync format addr samplesSize num len)) transfers h hframed rfl
      (Or.inr (dvd_zero 2))
  have hnil : decoded format ((Session.start (readAsync format addr samplesSize num len)).calls.flatten
      ++ (Session.start (readAsync format addr samplesSize num len)).stream.pending) = [] := by
    cases format <;> rfl
  have hlength : ∀ call ∈ s.calls, call.length = len.toNat := by
    intro call hcall
    rcases hcalls call hcall with hmem | hcalllen
    · cases hmem
    · exact hcalllen
  have hpending : s.stream.pending.length < len.toNat := by
    have hpos := hsframed.pos
    rw [hslen] at hpos
    rw [Stream.pending, List.length_take]
    exact (min_le_left _ _).trans_lt hpos
  rw [hnil, List.nil_append] at hdecoded
  refine ⟨s, hrun, hlength, hpending, hdecoded, ?_⟩
  intro heven
  rw [← hdecoded, decoded_flatten]
  intro call hcall
  rw [Whole, hlength call hcall]
  exact heven

def steadyBlock : Filled .s16_504 where
  block := ⟨0, List.replicate 12 0, packFields 8 1008 (List.replicate 1008 (-3)), rfl,
    packFields_length _ _ _⟩
  values := (List.replicate 1008 (-3)).map fun x => x * 2 ^ 8
  carries := .s16_504 List.length_replicate fun x hx => by
    rw [List.eq_of_mem_replicate hx]
    norm_num [InRange]

def steadyTransfers : List (Transfer × List Int) :=
  List.replicate 2
    (.bulk (wire [steadyBlock] ++ []) (1024 * [steadyBlock].length), valuesOf [steadyBlock])

theorem samples_delivered_steady : ∃ s, Transition.run Session.step
      (.start (readAsync .s16_504 506 0 0 1000))
      (steadyTransfers.map fun t => .completed t.1) = some s ∧
    (∀ call ∈ s.calls, call.length = (1000 : UInt32).toNat) ∧
    s.stream.pending.length < (1000 : UInt32).toNat ∧
    decoded .s16_504 (s.calls.flatten ++ s.stream.pending) = steadyTransfers.flatMap Prod.snd ∧
    (Format.s16_504 = .s8_504 ∨ 2 ∣ (1000 : UInt32).toNat →
      s.calls.flatMap (decoded .s16_504) ++ decoded .s16_504 s.stream.pending =
        steadyTransfers.flatMap Prod.snd) := by
  refine samples_delivered 506 0 0 (by decide) ?_
  intro t ht
  rw [List.eq_of_mem_replicate ht]
  exact .bulk [steadyBlock] [] (by decide)

end Msisdr
end SdrServer
