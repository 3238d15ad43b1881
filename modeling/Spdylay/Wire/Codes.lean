import Mathlib

/-! Protocol versions, error codes, status codes and the constants of the wire
format, under the library's names. -/
namespace Spdylay

inductive Version
  | spdy2
  | spdy3
  deriving DecidableEq, Repr

def Version.num : Version → Nat
  | .spdy2 => 2
  | .spdy3 => 3

/-- The asserts that a modelled function can reach. -/
inductive Assertion
  | nvOffset
  | nvIndexCount
  | bufferAdvance
  | deferredDataEmpty
  | streamPresent
  | errorIsFatal
  deriving DecidableEq, Repr

/-- The library's error codes. The last two are none of them: `endless` stands for a
loop that goes on for ever, and `assertion` for the process having stopped in an
assert. No caller handles them. -/
inductive Err
  | credentialPending
  | invalidArgument
  | zlib
  | unsupportedVersion
  | wouldblock
  | proto
  | invalidFrame
  | eof
  | deferred
  | streamIdNotAvailable
  | streamClosed
  | streamClosing
  | streamShutWr
  | invalidStreamId
  | invalidStreamState
  | deferredDataExist
  | synStreamNotAllowed
  | goawayAlreadySent
  | invalidHeaderBlock
  | invalidState
  | gzip
  | temporalCallbackFailure
  | frameTooLarge
  | nomem
  | callbackFailure
  | endless
  | assertion (a : Assertion)
  deriving DecidableEq, Repr

def Err.code : Err → Int
  | .credentialPending => -101
  | .invalidArgument => -501
  | .zlib => -502
  | .unsupportedVersion => -503
  | .wouldblock => -504
  | .proto => -505
  | .invalidFrame => -506
  | .eof => -507
  | .deferred => -508
  | .streamIdNotAvailable => -509
  | .streamClosed => -510
  | .streamClosing => -511
  | .streamShutWr => -512
  | .invalidStreamId => -513
  | .invalidStreamState => -514
  | .deferredDataExist => -515
  | .synStreamNotAllowed => -516
  | .goawayAlreadySent => -517
  | .invalidHeaderBlock => -518
  | .invalidState => -519
  | .gzip => -520
  | .temporalCallbackFailure => -521
  | .frameTooLarge => -522
  | .nomem => -901
  | .callbackFailure => -902
  | .endless => -998
  | .assertion _ => -999

def errFatal : Int := -900

def isNonFatal (e : Err) : Bool := decide (errFatal < e.code)

def isFatal (e : Err) : Bool := decide (e.code < errFatal)

/-- An error that the code asserts to be fatal before it returns it. -/
def assertFatal (e : Err) : Err := if isFatal e then e else .assertion .errorIsFatal

/-! Status codes of RST_STREAM and GOAWAY. A received frame may carry any
32-bit value there, so the codes are numbers. -/

def statusOk : Nat := 0
def protocolError : Nat := 1
def invalidStream : Nat := 2
def refusedStream : Nat := 3
def statusUnsupportedVersion : Nat := 4
def cancel : Nat := 5
def internalError : Nat := 6
def flowControlError : Nat := 7
def streamInUse : Nat := 8
def statusFrameTooLarge : Nat := 11

def goawayProtocolError : Nat := 1

/-! SETTINGS ids. -/

def settingsMaxConcurrentStreams : Nat := 4
def settingsInitialWindowSize : Nat := 7
def settingsClientCertificateVectorSize : Nat := 8
def settingsMax : Nat := 8

/-! Sizes and masks. -/

def headLen : Nat := 8
def streamIdMask : Nat := 2147483648
def lengthMask : Nat := 16777215
def dataPayloadLength : Nat := 4096
def initialMaxConcurrentStreams : Nat := 250
def initialWindowSize : Nat := 1024*1024
def initialFramebufLength : Nat := dataPayloadLength+8
def initialNvBufferLength : Nat := 4096
def initialClientCertVectorLength : Nat := 8
def maxClientCertVectorLength : Nat := 255
def maxUniqueId : Nat := 2147483647
def maxScheme : Nat := 255
def maxHostname : Nat := 255

/-! Types of control frames. -/

inductive FrameType
  | synStream
  | synReply
  | rstStream
  | settings
  | noop
  | ping
  | goaway
  | headers
  | windowUpdate
  | credential
  deriving DecidableEq, Repr

def FrameType.num : FrameType → Nat
  | .synStream => 1
  | .synReply => 2
  | .rstStream => 3
  | .settings => 4
  | .noop => 5
  | .ping => 6
  | .goaway => 7
  | .headers => 8
  | .windowUpdate => 9
  | .credential => 10

/-- The type with a given number; a peer may send any 16-bit number. -/
def FrameType.ofNum : Nat → Option FrameType
  | 1 => some .synStream
  | 2 => some .synReply
  | 3 => some .rstStream
  | 4 => some .settings
  | 5 => some .noop
  | 6 => some .ping
  | 7 => some .goaway
  | 8 => some .headers
  | 9 => some .windowUpdate
  | 10 => some .credential
  | _ => none

def synStreamNvOffset : Nat := 18

/-- Offset of the name/value block in a frame, the header included; `none` for
-1, a frame without such a block. -/
def frameNvOffset (type : FrameType) (version : Nat) : Option Nat :=
  match type with
  | .synStream => some synStreamNvOffset
  | .synReply | .headers => if version = 2 then some 14 else if version = 3 then some 12 else none
  | _ => none

/-- Bytes of a length in a name/value block; 0 for an unsupported version. -/
def frameGetLenSize (version : Nat) : Nat := if version = 2 then 2 else if version = 3 then 4 else 0

end Spdylay
