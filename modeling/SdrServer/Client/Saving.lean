import SdrServer.Client.Model
import Mathlib.Data.List.TakeDrop

namespace SdrServer
namespace Client

open Partial (Result Writes Reads Ends readLoop writeLoop)

section Rounds

variable {bufferLength : Nat} {buffer stream : List UInt8} {round : Round} {rounds : List Round}
  {s : Saved}

-- the ways in which recv() splits a stream of `n` bytes up to its end and fwrite() the blocks
inductive Delivers (bufferLength : Nat) : Nat → List Round → Prop
  | block {n : Nat} {round : Round} {rounds : List Round} : bufferLength ≤ n →
      Reads bufferLength round.received →
      Writes bufferLength (round.written.map fwriteResult) →
      Delivers bufferLength (n - bufferLength) rounds → Delivers bufferLength n (round :: rounds)
  | last {n : Nat} {received : List Result} : n < bufferLength → Ends n received →
      Delivers bufferLength n [⟨received, []⟩]

-- no timeouts, no errors, and every fwrite() makes progress
def Steady (rounds : List Round) : Prop :=
  ∀ round ∈ rounds, (∀ result ∈ round.received, result.Steady) ∧ 0 ∉ round.written

theorem fwriteResult_moved {written : Nat} :
    (∃ n, fwriteResult written = .moved n) ↔ written ≠ 0 := by
  unfold fwriteResult
  split <;> simp_all

theorem Delivers.steady {n : Nat} (h : Delivers bufferLength n rounds) : Steady rounds := by
  induction h with
  | block _ hreads hwrites _ ih =>
    refine List.forall_mem_cons.mpr ⟨⟨hreads.steady, ?_⟩, ih⟩
    intro hzero
    exact fwriteResult_moved.mp (hwrites.moved_mem _ (List.mem_map_of_mem hzero)) rfl
  | last _ hends => exact List.forall_mem_singleton.mpr ⟨hends.steady, List.not_mem_nil⟩

-- what one pass of the loop does
inductive Passes (bufferLength : Nat) (stream : List UInt8) (round : Round)
    (rounds : List Round) : Saved → Prop
  | ended {n : Nat} : n < bufferLength → n ≤ stream.length → round.written = [] → rounds = [] →
      ((∀ result ∈ round.received, result.Steady) → Ends n round.received) →
      Passes bufferLength stream round rounds
        ⟨[], stream.drop n, "unable to read data. shutdown"⟩
  | unwritten {sent : List UInt8} : sent <+: stream.take bufferLength → 0 ∈ round.written →
      rounds = [] →
      Passes bufferLength stream round rounds
        ⟨sent, stream.drop bufferLength, "unable to write the message"⟩
  | saved {s : Saved} : bufferLength ≤ stream.length → Reads bufferLength round.received →
      Writes bufferLength (round.written.map fwriteResult) →
      receiveLoop bufferLength (stream.take bufferLength) (stream.drop bufferLength) rounds =
        some s →
      Passes bufferLength stream round rounds
        { s with output := stream.take bufferLength ++ s.output }

theorem readLoop_block (hbuffer : buffer.length = bufferLength) {received : List Result}
    (hreads : Reads bufferLength received) (hle : bufferLength ≤ stream.length) :
    readLoop buffer bufferLength stream received =
      some ⟨stream.take bufferLength, stream.drop bufferLength, 0⟩ := by
  rw [Partial.readLoop_reads hreads (Nat.le_of_eq hbuffer.symm) hle, hbuffer, Nat.sub_self,
    List.take_zero, List.nil_append]

theorem receiveLoop_passes (hbuffer : buffer.length = bufferLength)
    (h : receiveLoop bufferLength buffer stream (round :: rounds) = some s) :
    Passes bufferLength stream round rounds s := by
  obtain ⟨r, hread, h⟩ := Option.bind_eq_some_iff.mp h
  rcases Partial.readLoop_cases hread with ⟨-, hle, hreads⟩ | ⟨hcode, n, hlt, hle, hdrop, hends⟩
  · rw [readLoop_block hbuffer hreads hle] at hread
    obtain rfl := Option.some.inj hread
    have hlen : (stream.take bufferLength).length = bufferLength := List.length_take_of_le hle
    rw [if_neg (by simp)] at h
    obtain ⟨w, hwrite, h⟩ := Option.bind_eq_some_iff.mp h
    rcases Partial.writeLoop_cases hwrite (Nat.le_of_eq hlen.symm) with
      ⟨hcode, hwrites⟩ | ⟨hcode, hsent, result, hmem, hresult⟩
    · rw [Partial.writeLoop_writes hwrites (Nat.le_of_eq hlen.symm)] at hwrite
      obtain rfl := Option.some.inj hwrite
      rw [if_neg (by simp)] at h
      obtain ⟨rest, hrest, rfl⟩ := Option.map_eq_some_iff.mp h
      simp only [hlen, Nat.sub_self, List.drop_zero]
      exact .saved hle hreads hwrites hrest
    · rw [if_pos hcode] at h
      split at h
      · rename_i hlast
        obtain rfl := Option.some.inj h
        obtain ⟨written, hwritten, rfl⟩ := List.mem_map.mp hmem
        have hzero : written = 0 := Classical.byContradiction fun hne =>
          (fwriteResult_moved.mpr hne).elim hresult
        rw [hlen, Nat.sub_self, List.drop_zero] at hsent
        exact .unwritten hsent (hzero ▸ hwritten) hlast
      · cases h
  · rw [if_pos hcode] at h
    split at h
    · rename_i hlast
      obtain rfl := Option.some.inj h
      rw [hdrop]
      exact .ended hlt hle hlast.1 hlast.2 hends
    · cases h

-- whatever the calls return, what is saved is a part of the stream from its first byte on
theorem output_prefix (hbuffer : buffer.length = bufferLength)
    (h : receiveLoop bufferLength buffer stream rounds = some s) : s.output <+: stream := by
  induction rounds generalizing buffer stream s with
  | nil => cases h
  | cons round rounds ih =>
    cases receiveLoop_passes hbuffer h with
    | ended => exact List.nil_prefix
    | unwritten hsent => exact hsent.trans (List.take_prefix _ _)
    | saved hle _ _ hrest =>
      have hboth := (List.prefix_append_right_inj (stream.take bufferLength)).mpr
        (ih (List.length_take_of_le hle) hrest)
      rwa [List.take_append_drop] at hboth

theorem receiveLoop_delivers (hpos : 0 < bufferLength) (hbuffer : buffer.length = bufferLength)
    (h : Delivers bufferLength stream.length rounds) :
    receiveLoop bufferLength buffer stream rounds =
      some ⟨stream.take (bufferLength * (stream.length / bufferLength)), [],
        "unable to read data. shutdown"⟩ := by
  generalize hn : stream.length = n at h
  induction h generalizing buffer stream with
  | @block n round rounds hle hreads hwrites _ ih =>
    have hlen : (stream.take bufferLength).length = bufferLength :=
      List.length_take_of_le (hn ▸ hle)
    have hleft : (stream.drop bufferLength).length = n - bufferLength := by
      rw [List.length_drop, hn]
    have hrest := ih hlen hleft
    have hblocks : n / bufferLength = (n - bufferLength) / bufferLength + 1 := by
      rw [← Nat.add_div_right _ hpos, Nat.sub_add_cancel hle]
    rw [receiveLoop, readLoop_block hbuffer hreads (hn ▸ hle)]
    simp only [Option.bind_some, ne_eq, not_true_eq_false, if_false,
      Partial.writeLoop_writes hwrites (Nat.le_of_eq hlen.symm), hrest, Option.map_some, hlen,
      Nat.sub_self, List.drop_zero]
    rw [hblocks, Nat.mul_add, Nat.mul_one, Nat.add_comm, List.take_add]
  | @last n received hlt hends =>
    obtain ⟨filled, hread⟩ := Partial.readLoop_ends (hn.symm ▸ hends) (Nat.le_of_eq hbuffer.symm)
      (hn.symm ▸ hlt)
    rw [receiveLoop, hread, Nat.div_eq_of_lt hlt, Nat.mul_zero, List.take_zero]
    rfl

-- the steady runs of the loop up to the end of the stream are exactly these
theorem delivers_iff (hpos : 0 < bufferLength) (hbuffer : buffer.length = bufferLength) :
    Delivers bufferLength stream.length rounds ↔
      Steady rounds ∧ ∃ s, receiveLoop bufferLength buffer stream rounds = some s ∧
        s.stream = [] := by
  constructor
  · intro h
    exact ⟨h.steady, _, receiveLoop_delivers hpos hbuffer h, rfl⟩
  · rintro ⟨hsteady, s, h, hall⟩
    induction rounds generalizing buffer stream s with
    | nil => cases h
    | cons round rounds ih =>
      have hround := hsteady round List.mem_cons_self
      cases receiveLoop_passes hbuffer h with
      | @ended n hlt hle hwritten hrounds hends =>
        have hn : n = stream.length := by
          have hdrop := congrArg List.length hall
          simp only [List.length_drop, List.length_nil] at hdrop
          omega
        subst hrounds
        obtain ⟨received, written⟩ := round
        obtain rfl : written = [] := hwritten
        exact .last (hn ▸ hlt) (hn ▸ hends hround.1)
      | unwritten _ hzero => exact absurd hzero hround.2
      | saved hle hreads hwrites hrest =>
        refine .block hle hreads hwrites ?_
        rw [← List.length_drop]
        exact ih (List.length_take_of_le hle)
          (fun round hmem => hsteady round (List.mem_cons_of_mem _ hmem)) _ hrest hall

end Rounds

section Program

variable {opts : List Opt} {filename : Option String} {answers : Answers} {stream : List UInt8}

-- a server accepts the request and then sends `n` bytes, and nothing fails on the client's side
structure Served (opts : List Opt) (filename : Option String) (answers : Answers) (n : Nat) :
    Prop where
  connected : ∃ args, parse opts defaults = .ok args ∧ args.centerFreq ≠ 0 ∧
    createClient answers args.hostname args.port = 0
  request : Writes (Wire.sizeofMessageHeader + Wire.sizeofRequest) answers.requestWrites
  header : Reads Wire.sizeofMessageHeader answers.headerReads
  response : Reads Wire.sizeofResponse answers.responseReads
  opened : ∃ name, filename = some name ∧ (name ≠ "-" → answers.fopen name = true)
  buffer : answers.buffer.isSome
  rounds : Delivers bufferLength n answers.rounds

theorem main_served (host : Wire.Endian) (details : UInt32)
    (h : Served opts filename answers stream.length) :
    ∃ sent, main host opts filename answers
        (writeMessage responseStatusSuccess details ++ stream) =
      some ⟨exitFailure, sent, stream.take (bufferLength * (stream.length / bufferLength)),
        some "unable to read data. shutdown"⟩ := by
  obtain ⟨args, hparse, hcenter, hclient⟩ := h.connected
  obtain ⟨name, rfl, hopen⟩ := h.opened
  obtain ⟨buffer, hbuffer⟩ := Option.isSome_iff_exists.mp h.buffer
  have hfile : ¬ (name ≠ "-" ∧ answers.fopen name = false) := by
    rintro ⟨hname, hfails⟩
    rw [hopen hname] at hfails
    cases hfails
  have hsend : ∀ bandFreq, ∃ sent, Wire.sendMessage host protocolVersion typeRequest
      args.centerFreq args.samplingRate bandFreq requestDestinationSocket answers.requestWrites =
        some ⟨sent, 0⟩ := fun bandFreq =>
    ⟨_, Wire.sendMessage_writes host ⟨protocolVersion, typeRequest⟩
      ⟨args.centerFreq, args.samplingRate, bandFreq, requestDestinationSocket⟩ h.request⟩
  obtain ⟨sent, hsent⟩ := hsend (if args.bandFreq = 0 then args.centerFreq else args.bandFreq)
  have hread := Wire.readResponse_reads host answers.header answers.response
    responseStatusSuccess details stream h.header h.response
  have hloop := receiveLoop_delivers (show 0 < bufferLength by decide) buffer.2 h.rounds
  refine ⟨sent, ?_⟩
  simp only [main, hparse, if_neg hcenter, hclient, ne_eq, not_true_eq_false, if_false, hsent,
    Option.bind_some, hread]
  rw [receive, if_neg hfile]
  simp only [hbuffer, hloop, Option.map_some]

theorem stream_saved (host : Wire.Endian) (details : UInt32)
    (h : Served opts filename answers stream.length) :
    ∃ outcome, main host opts filename answers
        (writeMessage responseStatusSuccess details ++ stream) = some outcome ∧
      (outcome.output = stream ↔ stream.length % bufferLength = 0) := by
  obtain ⟨sent, hmain⟩ := main_served host details h
  refine ⟨_, hmain, ?_⟩
  have hsum := Nat.div_add_mod stream.length bufferLength
  change stream.take (bufferLength * (stream.length / bufferLength)) = stream ↔ _
  rw [List.take_eq_self_iff]
  omega

end Program

def answersOf (rounds : List Round) : Answers where
  clientMemory := true
  socket := true
  connect := fun _ _ => true
  requestWrites := [.moved 15]
  header := ⟨[0, 0], rfl⟩
  headerReads := [.moved 2]
  response := ⟨[0, 0, 0, 0, 0], rfl⟩
  responseReads := [.moved 5]
  fopen := fun _ => true
  buffer := some ⟨List.replicate bufferLength 0, List.length_replicate⟩
  rounds := rounds

theorem served_answersOf {n : Nat} {rounds : List Round} (h : Delivers bufferLength n rounds) :
    Served [.centerFreq 438000000] (some "-") (answersOf rounds) n where
  connected := ⟨_, rfl, by decide, rfl⟩
  request := .moved (by decide) (by decide) .done
  header := .moved (by decide) (by decide) .done
  response := .moved (by decide) (by decide) .done
  opened := ⟨"-", rfl, fun hname => absurd rfl hname⟩
  buffer := rfl
  rounds := h

-- one block that comes in two pieces and goes out in two others
def oneBlock : List Round :=
  [⟨[.moved 100000, .interrupted, .moved 162144], [262000, 144]⟩, ⟨[.closed], []⟩]

theorem stream_saved_block : ∃ outcome,
    main .little [.centerFreq 438000000] (some "-") (answersOf oneBlock)
        (writeMessage responseStatusSuccess 0 ++ List.replicate bufferLength 7) = some outcome ∧
      outcome.output = List.replicate bufferLength 7 := by
  have hlen : (List.replicate bufferLength (7 : UInt8)).length = bufferLength :=
    List.length_replicate
  have hdelivers : Delivers bufferLength (List.replicate bufferLength (7 : UInt8)).length
      oneBlock := by
    rw [hlen]
    exact .block (Nat.le_refl _)
      (.moved (by decide) (by decide)
        (.interrupted (by decide) (.moved (by decide) (by decide) .done)))
      (.moved (by decide) (by decide) (.moved (by decide) (by decide) .done))
      (.last (by decide) .closed)
  obtain ⟨outcome, hmain, hsaved⟩ := stream_saved .little 0 (served_answersOf hdelivers)
  exact ⟨outcome, hmain, hsaved.mpr (by rw [hlen, Nat.mod_self])⟩

theorem last_bytes_lost : ∃ outcome,
    main .little [.centerFreq 438000000] (some "-") (answersOf [⟨[.moved 1, .closed], []⟩])
        (writeMessage responseStatusSuccess 0 ++ [7]) = some outcome ∧
      outcome.output ≠ [7] := by
  have hdelivers : Delivers bufferLength [(7 : UInt8)].length [⟨[.moved 1, .closed], []⟩] :=
    .last (by decide) (.moved (by decide) (by decide) .closed)
  obtain ⟨sent, hmain⟩ := main_served .little 0 (served_answersOf hdelivers)
  refine ⟨_, hmain, ?_⟩
  change [7].take (bufferLength * ([(7 : UInt8)].length / bufferLength)) ≠ [7]
  decide

end Client
end SdrServer
