import Mzmq.Endpoint

/-!
# What a subscriber gets

A peer that decodes what a driver sends gets the frames that the endpoint replies. A message is a frame with MORE and the frame
behind it; commands may stand between messages.
-/

namespace Mzmq

/-- The messages in a list of frames. -/
def messagesIn : List DecodedFrame → List (List UInt8 × List UInt8)
  | ⟨true, false, key⟩ :: ⟨false, false, payload⟩ :: fs => (key, payload) :: messagesIn fs
  | _ :: fs => messagesIn fs
  | [] => []

namespace Adapter

variable {τ T : Type} {cap : Nat}

/-- What a call has published: the message of a publish that returns a positive length. -/
def publishedBy (ev : Call τ cap T) : Option (List UInt8 × List UInt8) :=
  match ev.op, ev.res.2 with
  | .publish key payload, .published (.ok (_ + 1)) => some (key, payload)
  | _, _ => none

/-- What the calls of a run have published. -/
def publishedIn (h : List (Call τ cap T)) : List (List UInt8 × List UInt8) := h.filterMap publishedBy

end Adapter
end Mzmq
