import HttpRouting.Message.Headers
import HttpRouting.Text.Quoted

/-!
# Response bodies

A body is read frame by frame.  It holds its bytes at once, comes from a stream
of some kind, or is another body seen as a stream.  Before each frame it tells
how many bytes are still to come and whether it has ended.
-/

namespace HttpRouting

open Text.Utf8 (Bytes)

inductive Frame where
  | data (bytes : Bytes)
  | trailers (fields : Headers)
  | failure (message : String)
  deriving DecidableEq, Repr

/-- What a reader gets that asks for the next frame: nothing yet, or a frame,
or the end. -/
inductive Poll where
  | pending
  | ready (frame : Option Frame)
  deriving DecidableEq, Repr

structure BodyHint where
  lower : Nat
  upper : Option Nat
  ended : Bool
  deriving DecidableEq, Repr

/-- What is read frame by frame, and tells beforehand what is still to come. -/
class FrameSource (σ : Type) where
  poll : σ → Poll × σ
  hint : σ → BodyHint

instance : FrameSource (List Frame) where
  poll
    | [] => (.ready none, [])
    | frame :: rest => (.ready (some frame), rest)
  hint _ := ⟨0, none, false⟩

inductive BodyOver (σ : Type) where
  | once (bytes : Option Bytes)
  | stream (source : σ)
  | wrapped (inner : BodyOver σ)
  deriving DecidableEq, Repr

namespace BodyOver

variable {σ : Type} [FrameSource σ]

def poll : BodyOver σ → Poll × BodyOver σ
  | .once none => (.ready none, .once none)
  | .once (some bytes) => (.ready (some (.data bytes)), .once none)
  | .stream source =>
      let (polled, source) := FrameSource.poll source
      (polled, .stream source)
  | .wrapped inner =>
      let (polled, inner) := inner.poll
      (polled, .wrapped inner)

def hint : BodyOver σ → BodyHint
  | .once none => ⟨0, some 0, true⟩
  | .once (some bytes) => ⟨bytes.length, some bytes.length, false⟩
  | .stream source => FrameSource.hint source
  | .wrapped inner => inner.hint

instance : FrameSource (BodyOver σ) := ⟨poll, hint⟩

end BodyOver

abbrev Body := BodyOver (List Frame)

namespace Body

def empty : Body := .once none

instance : Inhabited Body := ⟨empty⟩

def ofBytes (bytes : Bytes) : Body := .once (some bytes)

def ofOption (bytes : Option Bytes) : Body := .once bytes

def ofText (s : String) : Body :=
  if s = "" then empty else ofBytes (Text.Utf8.encode s)

inductive Content where
  | body (b : Body)
  | text (s : String)
  | nothing
  | bytes (bytes : Bytes)
  | option (bytes : Option Bytes)
  deriving DecidableEq, Repr

def ofContent : Content → Body
  | .body b => b
  | .text s => ofText s
  | .nothing => empty
  | .bytes bytes => ofBytes bytes
  | .option bytes => ofOption bytes

def frames : Body → List Frame
  | .once none => []
  | .once (some bytes) => [.data bytes]
  | .stream frames => frames
  | .wrapped inner => frames inner

def collectFrames : List Frame → Except String Bytes
  | [] => .ok []
  | .data bytes :: rest => (collectFrames rest).map (bytes ++ ·)
  | .trailers _ :: rest => collectFrames rest
  | .failure message :: _ => .error message

def collect (b : Body) : Except String Bytes := collectFrames b.frames

def description : Body → String
  | .once none => "ResponseBody::Once(None)"
  | .once (some bytes) => "ResponseBody::Once(Some(" ++ Text.quotedBytes bytes ++ "))"
  | .stream _ | .wrapped _ => "ResponseBody::Stream"

/-- What a reader sees in at most `limit` reads, up to the end: each frame with
the hint that holds after it. -/
def reads : Nat → Body → List (BodyHint × Option Frame)
  | 0, _ => []
  | limit + 1, b =>
      match b.poll with
      | (.pending, after) => reads limit after
      | (.ready none, after) => [(after.hint, none)]
      | (.ready (some frame), after) => (after.hint, some frame) :: reads limit after

theorem poll_fst (b : Body) : b.poll.1 = .ready (frames b).head? := by
  induction b with
  | once bytes => cases bytes <;> rfl
  | stream frames => cases frames <;> rfl
  | wrapped inner ih => simpa [BodyOver.poll, frames] using ih

theorem frames_poll (b : Body) : frames b.poll.2 = (frames b).tail := by
  induction b with
  | once bytes => cases bytes <;> rfl
  | stream frames => cases frames <;> rfl
  | wrapped inner ih => simpa [BodyOver.poll, frames] using ih

end Body

end HttpRouting
