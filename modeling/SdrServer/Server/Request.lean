import Mathlib.Init

namespace SdrServer

structure ServerConfig where
  bandSamplingRate : UInt32
  queueSize : Nat
  deriving DecidableEq, Repr

structure Request where
  centerFreq : UInt32
  samplingRate : UInt32
  bandFreq : UInt32
  destination : UInt8
  deriving DecidableEq, Repr

structure ClientConfig where
  centerFreq : UInt32
  samplingRate : UInt32
  bandFreq : UInt32
  destination : UInt8
  clientSocket : Nat
  id : UInt32
  deriving DecidableEq, Repr

def protocolVersion : UInt8 := 0

def typeRequest : UInt8 := 0

def typeShutdown : UInt8 := 1

def typeResponse : UInt8 := 2

def typePing : UInt8 := 3

def requestDestinationFile : UInt8 := 0

def requestDestinationSocket : UInt8 := 1

def responseStatusSuccess : UInt8 := 0

def responseStatusFailure : UInt8 := 1

def responseDetailsInvalidRequest : UInt32 := 1

def responseDetailsOutOfBandFreq : UInt32 := 2

def responseDetailsInternalError : UInt32 := 3

-- `none` is a request that read_struct could not read in full
def readClientConfig (clientSocket : Nat) (server : ServerConfig) (request : Option Request) :
    Option ClientConfig :=
  request.bind fun req =>
    if 0 < req.samplingRate ∧ server.bandSamplingRate % req.samplingRate ≠ 0 then none
    else some
      { centerFreq := req.centerFreq
        samplingRate := req.samplingRate
        bandFreq := req.bandFreq
        destination := req.destination
        clientSocket := clientSocket
        id := 0 }

-- unsigned arithmetic modulo 2^32, as uint32_t
def validateClientConfig (config : ClientConfig) (server : ServerConfig) : Bool :=
  if config.centerFreq = 0 then false
  else if config.samplingRate = 0 then false
  else if config.bandFreq = 0 then false
  else if config.destination ≠ requestDestinationFile ∧
      config.destination ≠ requestDestinationSocket then false
  else
    let requestedMinFreq := config.centerFreq - config.samplingRate / 2
    let serverMinFreq := config.bandFreq - server.bandSamplingRate / 2
    if requestedMinFreq < serverMinFreq then false
    else
      let requestedMaxFreq := config.centerFreq + config.samplingRate / 2
      let serverMaxFreq := config.bandFreq + server.bandSamplingRate / 2
      if serverMaxFreq < requestedMaxFreq then false else true

def bigEndian (x : UInt32) : List UInt8 :=
  [(x >>> 24).toUInt8, (x >>> 16).toUInt8, (x >>> 8).toUInt8, x.toUInt8]

def writeMessage (status : UInt8) (details : UInt32) : List UInt8 :=
  [protocolVersion, typeResponse, status] ++ bigEndian details

-- what acceptor_worker finds on an accepted socket; `unconfigured` is a failed setsockopt
inductive Received where
  | unconfigured
  | unreadable
  | message (version type : UInt8) (request : Option Request)
  deriving DecidableEq, Repr

inductive Verdict where
  | closeOnly
  | respond (status : UInt8) (details : UInt32)
  | serve (config : ClientConfig)
  deriving DecidableEq, Repr

def invalidRequest : Verdict := .respond responseStatusFailure responseDetailsInvalidRequest

def examine (clientSocket : Nat) (server : ServerConfig) : Received → Verdict
  | .unconfigured => .closeOnly
  | .unreadable => invalidRequest
  | .message version type request =>
    if version ≠ protocolVersion then invalidRequest
    else if type = typeRequest then
      match readClientConfig clientSocket server request with
      | none => invalidRequest
      | some config => if validateClientConfig config server then .serve config else invalidRequest
    else if type = typePing then .respond responseStatusSuccess 0
    else invalidRequest

theorem validateClientConfig_fields {config : ClientConfig} {server : ServerConfig}
    (h : validateClientConfig config server = true) :
    config.bandFreq ≠ 0 ∧ (config.destination = requestDestinationFile ∨
      config.destination = requestDestinationSocket) := by
  unfold validateClientConfig at h
  split at h
  · cases h
  · split at h
    · cases h
    · split at h
      · cases h
      · rename_i hband
        split at h
        · cases h
        · rename_i hdestination
          refine ⟨hband, ?_⟩
          by_cases hfile : config.destination = requestDestinationFile
          · exact Or.inl hfile
          · exact Or.inr (Classical.byContradiction fun hsocket => hdestination ⟨hfile, hsocket⟩)

theorem readClientConfig_socket {clientSocket : Nat} {server : ServerConfig}
    {request : Option Request} {config : ClientConfig}
    (h : readClientConfig clientSocket server request = some config) :
    config.clientSocket = clientSocket := by
  obtain ⟨req, -, hreq⟩ := Option.bind_eq_some_iff.mp h
  split at hreq
  · cases hreq
  · obtain rfl := Option.some.inj hreq
    rfl

theorem validateClientConfig_samplingRate {config : ClientConfig} {server : ServerConfig}
    (h : validateClientConfig config server = true) : config.samplingRate ≠ 0 := by
  intro hzero
  simp [validateClientConfig, hzero] at h

theorem readClientConfig_divides {clientSocket : Nat} {server : ServerConfig}
    {request : Option Request} {config : ClientConfig}
    (h : readClientConfig clientSocket server request = some config)
    (hpos : 0 < config.samplingRate) : server.bandSamplingRate % config.samplingRate = 0 := by
  obtain ⟨req, -, hreq⟩ := Option.bind_eq_some_iff.mp h
  split at hreq
  · cases hreq
  · rename_i hfactor
    obtain rfl := Option.some.inj hreq
    exact Classical.byContradiction fun hrest => hfactor ⟨hpos, hrest⟩

theorem examine_request {clientSocket : Nat} {server : ServerConfig} {received : Received}
    {config : ClientConfig} (h : examine clientSocket server received = .serve config) :
    ∃ request, readClientConfig clientSocket server request = some config ∧
      validateClientConfig config server = true := by
  cases received with
  | unconfigured => cases h
  | unreadable => cases h
  | message version type request =>
    simp only [examine] at h
    split at h
    · cases h
    · split at h
      · cases hread : readClientConfig clientSocket server request with
        | none => simp [hread, invalidRequest] at h
        | some read =>
          rw [hread] at h
          dsimp only at h
          split at h
          · rename_i hvalid
            obtain rfl : read = config := Verdict.serve.inj h
            exact ⟨request, hread, hvalid⟩
          · cases h
      · split at h <;> cases h

theorem examine_serve {clientSocket : Nat} {server : ServerConfig} {received : Received}
    {config : ClientConfig} (h : examine clientSocket server received = .serve config) :
    config.clientSocket = clientSocket ∧ config.bandFreq ≠ 0 ∧
      (config.destination = requestDestinationFile ∨
        config.destination = requestDestinationSocket) := by
  obtain ⟨request, hread, hvalid⟩ := examine_request h
  exact ⟨readClientConfig_socket hread, validateClientConfig_fields hvalid⟩

end SdrServer
