import SdrServer.Foundation.Partial
import SdrServer.Server.Request
import Mathlib.Algebra.Group.Nat.Defs

namespace SdrServer
namespace Wire

open Partial (Result Wrote Read Writes Reads writeLoop readLoop)

-- the byte order of a host; client and server need not have the same one
inductive Endian where
  | little
  | big
  deriving DecidableEq, Repr

def ofBigEndian : List UInt8 → UInt32
  | [a, b, c, d] =>
    UInt32.ofNat (2 ^ 24 * a.toNat + 2 ^ 16 * b.toNat + 2 ^ 8 * c.toNat + d.toNat)
  | _ => 0

def byteSwap (x : UInt32) : UInt32 := ofBigEndian (bigEndian x).reverse

namespace Endian

def store (host : Endian) (x : UInt32) : List UInt8 :=
  match host with
  | .little => (bigEndian x).reverse
  | .big => bigEndian x

def load (host : Endian) (bytes : List UInt8) : UInt32 :=
  match host with
  | .little => ofBigEndian bytes.reverse
  | .big => ofBigEndian bytes

def htonl (host : Endian) (x : UInt32) : UInt32 :=
  match host with
  | .little => byteSwap x
  | .big => x

def ntohl (host : Endian) (x : UInt32) : UInt32 :=
  match host with
  | .little => byteSwap x
  | .big => x

end Endian

structure MessageHeader where
  protocolVersion : UInt8
  type : UInt8
  deriving DecidableEq, Repr

structure Response where
  status : UInt8
  details : UInt32
  deriving DecidableEq, Repr

def sizeofMessageHeader : Nat := 2

def sizeofRequest : Nat := 13

def sizeofResponse : Nat := 5

-- the packed structures as memcpy and recv() see them
def MessageHeader.bytes (header : MessageHeader) : List UInt8 :=
  [header.protocolVersion, header.type]

def MessageHeader.ofBytes (bytes : List UInt8) : MessageHeader :=
  ⟨bytes.getD 0 0, bytes.getD 1 0⟩

def requestBytes (host : Endian) (req : Request) : List UInt8 :=
  host.store req.centerFreq ++ host.store req.samplingRate ++ host.store req.bandFreq ++
    [req.destination]

def requestOfBytes (host : Endian) (bytes : List UInt8) : Request where
  centerFreq := host.load (bytes.take 4)
  samplingRate := host.load ((bytes.drop 4).take 4)
  bandFreq := host.load ((bytes.drop 8).take 4)
  destination := bytes.getD 12 0

def Response.bytes (host : Endian) (resp : Response) : List UInt8 :=
  resp.status :: host.store resp.details

def Response.ofBytes (host : Endian) (bytes : List UInt8) : Response :=
  ⟨bytes.getD 0 0, host.load ((bytes.drop 1).take 4)⟩

-- what a buffer holds before it is written
abbrev Memory (n : Nat) := { bytes : List UInt8 // bytes.length = n }

def writeData (buffer : List UInt8) (results : List Result) : Option (Wrote UInt8) :=
  writeLoop buffer buffer.length results

def writeRequest (host : Endian) (header : MessageHeader) (req : Request)
    (results : List Result) : Option (Wrote UInt8) :=
  let req :=
    { req with
      bandFreq := host.htonl req.bandFreq
      centerFreq := host.htonl req.centerFreq
      samplingRate := host.htonl req.samplingRate }
  writeData (header.bytes ++ requestBytes host req) results

def sendMessage (host : Endian) (protocol type : UInt8) (centerFreq samplingRate bandFreq : UInt32)
    (destination : UInt8) (results : List Result) : Option (Wrote UInt8) :=
  writeRequest host ⟨protocol, type⟩ ⟨centerFreq, samplingRate, bandFreq, destination⟩ results

def readStruct {n : Nat} (memory : Memory n) (stream : List UInt8) (results : List Result) :
    Option (Read UInt8) :=
  readLoop memory.1 n stream results

def readData {n : Nat} (memory : Memory n) (stream : List UInt8) (results : List Result) :
    Option (Read UInt8) :=
  readLoop memory.1 n stream results

-- the result and what is left of the stream; `none` inside is a structure not read in full
def readHeader (memory : Memory sizeofMessageHeader) (stream : List UInt8)
    (results : List Result) : Option (Option MessageHeader × List UInt8) :=
  (readStruct memory stream results).map fun r =>
    (if r.code < 0 then none else some (MessageHeader.ofBytes r.memory), r.stream)

def readRequest (host : Endian) (memory : Memory sizeofRequest) (stream : List UInt8)
    (results : List Result) : Option (Option Request × List UInt8) :=
  (readStruct memory stream results).map fun r =>
    let req := requestOfBytes host r.memory
    (if r.code < 0 then none
      else some
        { req with
          centerFreq := host.ntohl req.centerFreq
          samplingRate := host.ntohl req.samplingRate
          bandFreq := host.ntohl req.bandFreq }, r.stream)

def readClientConfig (host : Endian) (memory : Memory sizeofRequest) (clientSocket : Nat)
    (server : ServerConfig) (stream : List UInt8) (results : List Result) :
    Option (Option ClientConfig × List UInt8) :=
  (readRequest host memory stream results).map fun r =>
    (SdrServer.readClientConfig clientSocket server r.1, r.2)

-- what acceptor_worker and handle_new_client read of a message
def receive (host : Endian) (header : Memory sizeofMessageHeader) (request : Memory sizeofRequest)
    (stream : List UInt8) (headerResults requestResults : List Result) :
    Option (Received × List UInt8) :=
  (readHeader header stream headerResults).bind fun r =>
    match r.1 with
    | none => some (.unreadable, r.2)
    | some header =>
      if header.protocolVersion = protocolVersion ∧ header.type = typeRequest then
        (readRequest host request r.2 requestResults).map fun q =>
          (.message header.protocolVersion header.type q.1, q.2)
      else some (.message header.protocolVersion header.type none, r.2)

def writeResponse (host : Endian) (status : UInt8) (details : UInt32) (results : List Result) :
    Option (Wrote UInt8) :=
  writeData ((MessageHeader.mk protocolVersion typeResponse).bytes ++
    (Response.mk status (host.htonl details)).bytes host) results

def readResponse (host : Endian) (header : Memory sizeofMessageHeader)
    (response : Memory sizeofResponse) (stream : List UInt8)
    (headerResults responseResults : List Result) :
    Option (Except Int32 (MessageHeader × Response) × List UInt8) :=
  (readData header stream headerResults).bind fun r =>
    if r.code ≠ 0 then some (.error r.code, r.stream)
    else
      (readData response r.stream responseResults).map fun q =>
        if q.code ≠ 0 then (.error q.code, q.stream)
        else
          let resp := Response.ofBytes host q.memory
          (.ok (MessageHeader.ofBytes r.memory, { resp with details := host.ntohl resp.details }),
            q.stream)

theorem ofBigEndian_bigEndian (x : UInt32) : ofBigEndian (bigEndian x) = x := by
  have hx := x.toNat_lt
  apply UInt32.toNat_inj.mp
  simp [bigEndian, ofBigEndian, Nat.shiftRight_eq_div_pow]
  omega

theorem bigEndian_ofBigEndian (a b c d : UInt8) :
    bigEndian (ofBigEndian [a, b, c, d]) = [a, b, c, d] := by
  have ha := a.toNat_lt
  have hb := b.toNat_lt
  have hc := c.toNat_lt
  have hd := d.toNat_lt
  have hx : (ofBigEndian [a, b, c, d]).toNat =
      2 ^ 24 * a.toNat + 2 ^ 16 * b.toNat + 2 ^ 8 * c.toNat + d.toNat := by
    simp [ofBigEndian]
    omega
  simp only [bigEndian, List.cons.injEq, ← UInt8.toNat_inj]
  simp [hx, Nat.shiftRight_eq_div_pow]
  omega

theorem bigEndian_byteSwap (x : UInt32) : bigEndian (byteSwap x) = (bigEndian x).reverse :=
  bigEndian_ofBigEndian _ _ _ _

theorem byteSwap_byteSwap (x : UInt32) : byteSwap (byteSwap x) = x := by
  rw [byteSwap, bigEndian_byteSwap, List.reverse_reverse, ofBigEndian_bigEndian]

theorem store_htonl (host : Endian) (x : UInt32) : host.store (host.htonl x) = bigEndian x := by
  cases host with
  | little =>
    change (bigEndian (byteSwap x)).reverse = bigEndian x
    rw [bigEndian_byteSwap, List.reverse_reverse]
  | big => rfl

theorem ntohl_load (host : Endian) (x : UInt32) : host.ntohl (host.load (bigEndian x)) = x := by
  cases host with
  | little => exact byteSwap_byteSwap x
  | big => exact ofBigEndian_bigEndian x

-- the request in network order, whatever the host
def wireRequest (req : Request) : List UInt8 :=
  bigEndian req.centerFreq ++ bigEndian req.samplingRate ++ bigEndian req.bandFreq ++
    [req.destination]

section Io

variable {n : Nat} {results : List Result} {bytes : List UInt8}

theorem writeData_writes (h : Writes n results) (hlen : bytes.length = n) :
    writeData bytes results = some ⟨bytes, 0⟩ := by
  subst hlen
  rw [writeData, Partial.writeLoop_writes h (Nat.le_refl _), Nat.sub_self, List.drop_zero]

theorem readStruct_reads (memory : Memory n) (h : Reads n results) (hlen : bytes.length = n)
    (rest : List UInt8) : readStruct memory (bytes ++ rest) results = some ⟨bytes, rest, 0⟩ := by
  have hmemory := memory.2
  have hstream : n ≤ (bytes ++ rest).length := by
    rw [List.length_append]
    omega
  rw [readStruct, Partial.readLoop_reads h (by omega) hstream, hmemory, Nat.sub_self,
    List.take_zero, List.nil_append, List.take_left' hlen, List.drop_left' hlen]

theorem readData_reads (memory : Memory n) (h : Reads n results) (hlen : bytes.length = n)
    (rest : List UInt8) : readData memory (bytes ++ rest) results = some ⟨bytes, rest, 0⟩ :=
  readStruct_reads memory h hlen rest

end Io

section Messages

variable {writes headerReads bodyReads : List Result}

theorem sendMessage_writes (client : Endian) (header : MessageHeader) (req : Request)
    (h : Writes (sizeofMessageHeader + sizeofRequest) writes) :
    sendMessage client header.protocolVersion header.type req.centerFreq req.samplingRate
      req.bandFreq req.destination writes = some ⟨header.bytes ++ wireRequest req, 0⟩ := by
  rw [sendMessage, writeRequest]
  simp only [requestBytes, store_htonl]
  exact writeData_writes h rfl

theorem readHeader_reads (memory : Memory sizeofMessageHeader) (header : MessageHeader)
    (rest : List UInt8) (h : Reads sizeofMessageHeader headerReads) :
    readHeader memory (header.bytes ++ rest) headerReads = some (some header, rest) := by
  rw [readHeader, readStruct_reads memory h rfl]
  rfl

theorem readRequest_reads (server : Endian) (memory : Memory sizeofRequest) (req : Request)
    (rest : List UInt8) (h : Reads sizeofRequest bodyReads) :
    readRequest server memory (wireRequest req ++ rest) bodyReads = some (some req, rest) := by
  have hcenter : (wireRequest req).take 4 = bigEndian req.centerFreq := rfl
  have hsampling : ((wireRequest req).drop 4).take 4 = bigEndian req.samplingRate := rfl
  have hband : ((wireRequest req).drop 8).take 4 = bigEndian req.bandFreq := rfl
  have hdestination : (wireRequest req).getD 12 0 = req.destination := rfl
  rw [readRequest, readStruct_reads memory h rfl]
  simp only [Option.map_some, requestOfBytes, hcenter, hsampling, hband, hdestination, ntohl_load]
  rfl

theorem writeResponse_writes (server : Endian) (status : UInt8) (details : UInt32)
    (h : Writes (sizeofMessageHeader + sizeofResponse) writes) :
    writeResponse server status details writes = some ⟨writeMessage status details, 0⟩ := by
  rw [writeResponse, Response.bytes]
  simp only [store_htonl]
  exact writeData_writes h rfl

theorem readResponse_reads (client : Endian) (header : Memory sizeofMessageHeader)
    (response : Memory sizeofResponse) (status : UInt8) (details : UInt32) (rest : List UInt8)
    (hheader : Reads sizeofMessageHeader headerReads) (hbody : Reads sizeofResponse bodyReads) :
    readResponse client header response (writeMessage status details ++ rest) headerReads
      bodyReads = some (.ok (⟨protocolVersion, typeResponse⟩, ⟨status, details⟩), rest) := by
  have hsplit : writeMessage status details ++ rest =
      [protocolVersion, typeResponse] ++ ((status :: bigEndian details) ++ rest) := rfl
  have hdetails : ((status :: bigEndian details).drop 1).take 4 = bigEndian details := rfl
  rw [readResponse, hsplit, readData_reads header hheader rfl, Option.bind_some,
    if_neg (by simp), readData_reads response hbody rfl]
  simp only [Option.map_some, Response.ofBytes, hdetails, ntohl_load]
  rfl

theorem receive_reads (server : Endian) (headerMemory : Memory sizeofMessageHeader)
    (requestMemory : Memory sizeofRequest) (header : MessageHeader) (req : Request)
    (rest : List UInt8) (hheader : Reads sizeofMessageHeader headerReads)
    (hbody : Reads sizeofRequest bodyReads) :
    receive server headerMemory requestMemory (header.bytes ++ (wireRequest req ++ rest))
        headerReads bodyReads =
      if header.protocolVersion = protocolVersion ∧ header.type = typeRequest then
        some (.message header.protocolVersion header.type (some req), rest)
      else
        some (.message header.protocolVersion header.type none, wireRequest req ++ rest) := by
  rw [receive, readHeader_reads headerMemory header _ hheader, Option.bind_some]
  simp only [readRequest_reads server requestMemory req rest hbody, Option.map_some]

end Messages

theorem wire_agrees (client server : Endian) :
    (∀ (header : MessageHeader) (req : Request) (rest : List UInt8)
        (headerMemory : Memory sizeofMessageHeader) (requestMemory : Memory sizeofRequest)
        (clientSocket : Nat) (config : ServerConfig) (writes headerReads requestReads : List Result),
      Writes (sizeofMessageHeader + sizeofRequest) writes → Reads sizeofMessageHeader headerReads →
      Reads sizeofRequest requestReads →
      ∃ sent body,
        sendMessage client header.protocolVersion header.type req.centerFreq req.samplingRate
            req.bandFreq req.destination writes = some ⟨sent, 0⟩ ∧
          readHeader headerMemory (sent ++ rest) headerReads = some (some header, body ++ rest) ∧
          readClientConfig server requestMemory clientSocket config (body ++ rest) requestReads =
            some (if 0 < req.samplingRate ∧ config.bandSamplingRate % req.samplingRate ≠ 0 then none
              else some
                { centerFreq := req.centerFreq
                  samplingRate := req.samplingRate
                  bandFreq := req.bandFreq
                  destination := req.destination
                  clientSocket := clientSocket
                  id := 0 }, rest) ∧
          receive server headerMemory requestMemory (sent ++ rest) headerReads requestReads =
            if header.protocolVersion = protocolVersion ∧ header.type = typeRequest then
              some (.message header.protocolVersion header.type (some req), rest)
            else some (.message header.protocolVersion header.type none, body ++ rest)) ∧
    ∀ (status : UInt8) (details : UInt32) (rest : List UInt8)
        (headerMemory : Memory sizeofMessageHeader) (responseMemory : Memory sizeofResponse)
        (writes headerReads responseReads : List Result),
      Writes (sizeofMessageHeader + sizeofResponse) writes →
      Reads sizeofMessageHeader headerReads → Reads sizeofResponse responseReads →
      ∃ sent, writeResponse server status details writes = some ⟨sent, 0⟩ ∧
        readResponse client headerMemory responseMemory (sent ++ rest) headerReads responseReads =
          some (.ok (⟨protocolVersion, typeResponse⟩, ⟨status, details⟩), rest) := by
  constructor
  · intro header req rest headerMemory requestMemory clientSocket config writes headerReads
      requestReads hwrites hheader hrequest
    refine ⟨header.bytes ++ wireRequest req, wireRequest req,
      sendMessage_writes client header req hwrites, ?_, ?_, ?_⟩
    · rw [List.append_assoc]
      exact readHeader_reads headerMemory header _ hheader
    · rw [readClientConfig, readRequest_reads server requestMemory req rest hrequest]
      rfl
    · rw [List.append_assoc]
      exact receive_reads server headerMemory requestMemory header req rest hheader hrequest
  · intro status details rest headerMemory responseMemory writes headerReads responseReads hwrites
      hheader hresponse
    exact ⟨writeMessage status details, writeResponse_writes server status details hwrites,
      readResponse_reads client headerMemory responseMemory status details rest hheader hresponse⟩

-- a write of nothing and reads broken off by signals, between hosts of different byte orders
theorem wire_agrees_split :
    (∃ sent, sendMessage .little 0 0 438000000 48000 437000000 1
          [.moved 4, .moved 0, .moved 11] = some ⟨sent, 0⟩ ∧
        receive .big ⟨[204, 204], rfl⟩ ⟨List.replicate 13 204, rfl⟩ (sent ++ [7])
            [.interrupted, .moved 1, .moved 1] [.moved 5, .interrupted, .moved 8] =
          some (.message 0 0 (some ⟨438000000, 48000, 437000000, 1⟩), [7])) ∧
      ∃ sent, writeResponse .big 1 3 [.moved 6, .moved 1] = some ⟨sent, 0⟩ ∧
        readResponse .little ⟨[204, 204], rfl⟩ ⟨List.replicate 5 204, rfl⟩ (sent ++ [])
            [.moved 2] [.moved 1, .interrupted, .moved 4] = some (.ok (⟨0, 2⟩, ⟨1, 3⟩), []) := by
  have hrequest := (wire_agrees .little .big).1 ⟨0, 0⟩ ⟨438000000, 48000, 437000000, 1⟩ [7]
    ⟨[204, 204], rfl⟩ ⟨List.replicate 13 204, rfl⟩ 5 ⟨2400000, 64⟩
    [.moved 4, .moved 0, .moved 11] [.interrupted, .moved 1, .moved 1]
    [.moved 5, .interrupted, .moved 8]
    (.moved (by decide) (by decide) (.moved (by decide) (by decide)
      (.moved (by decide) (by decide) .done)))
    (.interrupted (by decide) (.moved (by decide) (by decide)
      (.moved (by decide) (by decide) .done)))
    (.moved (by decide) (by decide) (.interrupted (by decide)
      (.moved (by decide) (by decide) .done)))
  have hresponse := (wire_agrees .little .big).2 1 3 [] ⟨[204, 204], rfl⟩
    ⟨List.replicate 5 204, rfl⟩ [.moved 6, .moved 1] [.moved 2] [.moved 1, .interrupted, .moved 4]
    (.moved (by decide) (by decide) (.moved (by decide) (by decide) .done))
    (.moved (by decide) (by decide) .done)
    (.moved (by decide) (by decide) (.interrupted (by decide)
      (.moved (by decide) (by decide) .done)))
  obtain ⟨sent, body, hsent, -, -, hreceive⟩ := hrequest
  exact ⟨⟨sent, hsent, hreceive⟩, hresponse⟩

end Wire
end SdrServer
