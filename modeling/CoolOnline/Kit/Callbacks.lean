import CoolOnline.Common.Protocol

/-! # Callbacks in the Kit's queue

`KitQueue::putCallback`, `KitQueue::elideDuplicateCallback` and `KitQueue::getCallback` of
`kit/KitQueue.cpp`: `_callbacks`, what the core has reported and the Kit has still to send out.
-/

namespace CoolOnline.Kit

open StringVector COOLProtocol

/-- The kinds of `LibreOfficeKitCallbackType` that the queue tells apart. -/
inductive CallbackType
  | invalidateTiles
  | stateChanged
  | invalidateVisibleCursor
  | cursorVisible
  | statusIndicatorSetValue
  | documentSizeChanged
  | cellCursor
  | invalidateViewCursor
  | cellViewCursor
  | viewCursorVisible
  | other (type : Nat)
deriving DecidableEq, Repr

structure Callback where
  view : Int
  type : CallbackType
  payload : Payload
deriving DecidableEq, Repr

/-- `INT_MAX`. -/
def intMax : Int := 2 ^ 31 - 1

/-- What `extractRectangle` reads. -/
structure Invalidation where
  x : Int
  y : Int
  w : Int
  h : Int
  part : Int
  mode : Int
deriving DecidableEq, Repr

namespace Word

def empty : Payload := ['E', 'M', 'P', 'T', 'Y', ',']
def uno : Payload := ['.', 'u', 'n', 'o', ':']
def modifiedStatus : Payload :=
  uno ++ ['M', 'o', 'd', 'i', 'f', 'i', 'e', 'd', 'S', 't', 'a', 't', 'u', 's']

end Word

/-- The mode of an `EMPTY` payload is not read. -/
def extractRectangle (tokens : List Payload) : Option Invalidation :=
  if tokens.length < 2 then none
  else if equals tokens 0 Word.empty then
    some ⟨0, 0, intMax, intMax, atoi (tokens.getD 1 []), 0⟩
  else if tokens.length < 5 then none
  else
    some ⟨atoi (tokens.getD 0 []), atoi (tokens.getD 1 []), atoi (tokens.getD 2 []),
      atoi (tokens.getD 3 []), atoi (tokens.getD 4 []),
      if tokens.length = 6 then atoi (tokens.getD 5 []) else 0⟩

/-- The command of a state, up to the `=`. -/
def extractUnoCommand (command : Payload) : Payload :=
  if Word.uno.isPrefixOf command then command.takeWhile (· != '=') else []

namespace Invalidation

def covers (msg queued : Invalidation) : Bool :=
  msg.x ≤ queued.x && queued.x + queued.w ≤ msg.x + msg.w && msg.y ≤ queued.y &&
    queued.y + queued.h ≤ msg.y + msg.h

/-- `TileDesc::rectanglesIntersect`. -/
def intersects (a b : Invalidation) : Bool :=
  max a.x b.x ≤ min (a.x + a.w) (b.x + b.w) && max a.y b.y ≤ min (a.y + a.h) (b.y + b.h)

def join (msg queued : Invalidation) : Invalidation :=
  { msg with
    x := min msg.x queued.x
    y := min msg.y queued.y
    w := max (msg.x + msg.w) (queued.x + queued.w) - min msg.x queued.x
    h := max (msg.y + msg.h) (queued.y + queued.h) - min msg.y queued.y }

def reasonableSizeX : Int := 4 * 3840
def reasonableSizeY : Int := 2 * 3840

def isReasonable (r : Invalidation) : Bool := r.w ≤ reasonableSizeX && r.h ≤ reasonableSizeY

end Invalidation

/-- The queued invalidation that a message of the view for the same part and mode meets. -/
def queuedInvalidation (view : Int) (msg : Invalidation) (it : Callback) : Option Invalidation :=
  if it.type ≠ .invalidateTiles ∨ it.view ≠ view then none
  else
    (extractRectangle (tokenize it.payload ' ')).filter fun queued =>
      msg.part == queued.part && msg.mode == queued.mode

/-- The walk over the whole queue: what is left of it, the rectangle it has grown to and whether it
has. -/
def mergeInvalidations (view : Int) :
    Invalidation → Bool → List Callback → List Callback × Invalidation × Bool
  | msg, performedMerge, [] => ([], msg, performedMerge)
  | msg, performedMerge, it :: rest =>
      let keep :=
        let (left, msg', merged) := mergeInvalidations view msg performedMerge rest
        (it :: left, msg', merged)
      match queuedInvalidation view msg it with
      | none => keep
      | some queued =>
          if msg.covers queued then mergeInvalidations view msg performedMerge rest
          else if msg.intersects queued then
            if (msg.join queued).isReasonable then
              mergeInvalidations view (msg.join queued) true rest
            else keep
          else keep

/-- The payload of a merged invalidation, with the rest of the new message. -/
def mergedPayload (msg : Invalidation) (tokens : List Payload) : Payload :=
  Text.decimal msg.x ++ [',', ' '] ++ Text.decimal msg.y ++ [',', ' '] ++
    Text.decimal msg.w ++ [',', ' '] ++ Text.decimal msg.h ++ [',', ' '] ++ cat tokens ' ' 4

/-- A queued state that counts as one of the same command: the command is compared with the whole
payload. -/
def isObsoleteState (view : Int) (unoCommand : Payload) (it : Callback) : Bool :=
  it.type == .stateChanged && it.view == view && unoCommand.length + 1 ≤ it.payload.length &&
    unoCommand == it.payload && it.payload[unoCommand.length]? == some '='

/-- The first queued callback about the same view is removed; a payload without a view throws. -/
def removeViewCallback (extractViewId : Payload → Option Payload) (view : Int)
    (type : CallbackType) (viewId : Payload) : List Callback → Option (List Callback)
  | [] => some []
  | it :: rest =>
      if it.type ≠ type ∨ it.view ≠ view then
        (removeViewCallback extractViewId view type viewId rest).map (it :: ·)
      else
        (extractViewId it.payload).bind fun queuedViewId =>
          if viewId = queuedViewId then some rest
          else (removeViewCallback extractViewId view type viewId rest).map (it :: ·)

section Queue

-- The `viewId` of a JSON payload; parsing another payload throws.
variable (extractViewId : Payload → Option Payload)

/-- The queue without what the new callback makes obsolete, and whether another one has been queued
in its place. -/
def elideDuplicateCallback (callbacks : List Callback) (view : Int) (type : CallbackType)
    (payload : Payload) : Option (List Callback × Bool) :=
  if callbacks = [] then some (callbacks, false)
  else
    match type with
    | .invalidateTiles =>
        let tokens := tokenize payload ' '
        match extractRectangle tokens with
        | none => some (callbacks, false)
        | some msg =>
            let (left, msg', performedMerge) := mergeInvalidations view msg false callbacks
            if performedMerge then
              some (left ++ [⟨view, type, mergedPayload msg' tokens⟩], true)
            else some (left, false)
    | .stateChanged =>
        let unoCommand := extractUnoCommand payload
        if unoCommand = [] ∨ unoCommand = Word.modifiedStatus then some (callbacks, false)
        else some (callbacks.eraseP (isObsoleteState view unoCommand), false)
    | .invalidateVisibleCursor | .cursorVisible | .statusIndicatorSetValue
    | .documentSizeChanged | .cellCursor =>
        some (callbacks.eraseP fun it => it.type == type && it.view == view, false)
    | .invalidateViewCursor | .cellViewCursor | .viewCursorVisible =>
        (extractViewId payload).bind fun viewId =>
          (removeViewCallback extractViewId view type viewId callbacks).map fun left =>
            (left, false)
    | .other _ => some (callbacks, false)

def putCallback (callbacks : List Callback) (view : Int) (type : CallbackType)
    (payload : Payload) : Option (List Callback) :=
  (elideDuplicateCallback extractViewId callbacks view type payload).map fun (left, elided) =>
    if elided then left else left ++ [⟨view, type, payload⟩]

end Queue

def getCallback : List Callback → Option (Callback × List Callback)
  | [] => none
  | front :: callbacks => some (front, callbacks)

end CoolOnline.Kit
