import SdrServer.Server.Wire

namespace SdrServer
namespace Client

open Partial (Result readLoop writeLoop)

-- the options as getopt returns them, their numbers as atof and atoi read them; `other` is any
-- that the switch has no case for
inductive Opt where
  | help
  | hostname (hostname : String)
  | bandFreq (hz : UInt32)
  | samplingRate (hz : UInt32)
  | port (port : Int32)
  | centerFreq (hz : UInt32)
  | other
  deriving DecidableEq, Repr

structure Arguments where
  port : Int32
  centerFreq : UInt32
  bandFreq : UInt32
  samplingRate : UInt32
  hostname : String
  deriving DecidableEq, Repr

def defaults : Arguments where
  port := 8090
  centerFreq := 0
  bandFreq := 0
  samplingRate := 48000
  hostname := "127.0.0.1"

def exitSuccess : Int32 := 0

def exitFailure : Int32 := 1

def enomem : Int32 := 12

-- `error` is the status with which the program ends in the switch
def parse : List Opt → Arguments → Except Int32 Arguments
  | [], args => .ok args
  | .help :: _, _ => .error exitSuccess
  | .hostname hostname :: opts, args => parse opts { args with hostname }
  | .bandFreq bandFreq :: opts, args => parse opts { args with bandFreq }
  | .samplingRate samplingRate :: opts, args => parse opts { args with samplingRate }
  | .port port :: opts, args => parse opts { args with port }
  | .centerFreq centerFreq :: opts, args => parse opts { args with centerFreq }
  | .other :: _, _ => .error exitFailure

-- the calls of recv() and fwrite() in one pass of the loop
structure Round where
  received : List Result
  written : List Nat
  deriving DecidableEq, Repr

def bufferLength : Nat := 262144

-- the answers of malloc, of the network and of the file system
structure Answers where
  clientMemory : Bool
  socket : Bool
  connect : String → Int32 → Bool
  requestWrites : List Result
  header : Wire.Memory Wire.sizeofMessageHeader
  headerReads : List Result
  response : Wire.Memory Wire.sizeofResponse
  responseReads : List Result
  fopen : String → Bool
  buffer : Option (Wire.Memory bufferLength)
  rounds : List Round

-- how the program ends: `sent` is what has gone to the server, `output` what the output holds and
-- `message` what main has written to stderr (perror adds the cause)
structure Outcome where
  status : Int32
  sent : List UInt8
  output : List UInt8
  message : Option String
  deriving DecidableEq, Repr

-- the end of the receiving loop, with what recv() has not taken of the stream
structure Saved where
  output : List UInt8
  stream : List UInt8
  message : String
  deriving DecidableEq, Repr

def createClient (answers : Answers) (hostname : String) (port : Int32) : Int32 :=
  if answers.clientMemory = false then -enomem
  else if answers.socket = false then -1
  else if answers.connect hostname port = false then -1
  else 0

-- fwrite() returns 0 where it cannot write
def fwriteResult (written : Nat) : Result := if written = 0 then .failed else .moved written

-- no signal handler is installed, so that do_exit stays 0
def receiveLoop (bufferLength : Nat) (buffer stream : List UInt8) : List Round → Option Saved
  | [] => none
  | round :: rounds =>
    (readLoop buffer bufferLength stream round.received).bind fun r =>
      if r.code ≠ 0 then
        if round.written = [] ∧ rounds = [] then
          some ⟨[], r.stream, "unable to read data. shutdown"⟩
        else none
      else
        (writeLoop r.memory bufferLength (round.written.map fwriteResult)).bind fun w =>
          if w.code ≠ 0 then
            if rounds = [] then some ⟨w.sent, r.stream, "unable to write the message"⟩ else none
          else
            (receiveLoop bufferLength r.memory r.stream rounds).map fun s =>
              { s with output := w.sent ++ s.output }

def receive (answers : Answers) (filename : String) (sent stream : List UInt8) : Option Outcome :=
  if filename ≠ "-" ∧ answers.fopen filename = false then
    some ⟨exitFailure, sent, [], some ("failed to open " ++ filename)⟩
  else
    match answers.buffer with
    | none => some ⟨-enomem, sent, [], none⟩
    | some buffer =>
      (receiveLoop bufferLength buffer.1 stream answers.rounds).map fun s =>
        ⟨exitFailure, sent, s.output, some s.message⟩

-- `filename` is the first argument that is no option, `stream` what the server sends; `none` are
-- results of the calls that do not fit what is asked for
def main (host : Wire.Endian) (opts : List Opt) (filename : Option String) (answers : Answers)
    (stream : List UInt8) : Option Outcome :=
  match parse opts defaults, filename with
  | .error status, _ => some ⟨status, [], [], none⟩
  | .ok _, none => some ⟨exitSuccess, [], [], none⟩
  | .ok args, some filename =>
    if args.centerFreq = 0 then some ⟨exitSuccess, [], [], none⟩
    else
      let bandFreq := if args.bandFreq = 0 then args.centerFreq else args.bandFreq
      let code := createClient answers args.hostname args.port
      if code ≠ 0 then some ⟨code, [], [], none⟩
      else
        (Wire.sendMessage host protocolVersion typeRequest args.centerFreq args.samplingRate
          bandFreq requestDestinationSocket answers.requestWrites).bind fun w =>
          if w.code ≠ 0 then some ⟨w.code, w.sent, [], none⟩
          else
            (Wire.readResponse host answers.header answers.response stream answers.headerReads
              answers.responseReads).bind fun r =>
              match r.1 with
              | .error code => some ⟨code, w.sent, [], none⟩
              | .ok (header, resp) =>
                if header.type ≠ typeResponse then
                  some ⟨exitFailure, w.sent, [],
                    some ("invalid response type received: " ++ toString header.type)⟩
                else if resp.status ≠ responseStatusSuccess then
                  some ⟨exitFailure, w.sent, [],
                    some ("invalid request: " ++ toString resp.details.toInt32)⟩
                else receive answers filename w.sent r.2

end Client
end SdrServer
