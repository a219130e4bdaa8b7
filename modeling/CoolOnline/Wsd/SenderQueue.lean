import CoolOnline.Library.History
import CoolOnline.Library.LatestQueue
import CoolOnline.Wsd.TileDesc

/-! # The queue of a session's messages

`SenderQueue` of `wsd/SenderQueue.hpp`, with what it reads of a `Message` of `common/Message.hpp`:
what is still to be sent to a client. A message that is enqueued replaces the queued one that it
makes obsolete.
-/

namespace CoolOnline

open StringVector LatestQueue

namespace Word

def tileCommand : Payload := ['t', 'i', 'l', 'e', ':']
def invalidatecursor : Payload :=
  ['i', 'n', 'v', 'a', 'l', 'i', 'd', 'a', 't', 'e', 'c', 'u', 'r', 's', 'o', 'r', ':']
def setpart : Payload := ['s', 'e', 't', 'p', 'a', 'r', 't', ':']
def progress : Payload := ['p', 'r', 'o', 'g', 'r', 'e', 's', 's', ':']
def invalidateviewcursor : Payload :=
  ['i', 'n', 'v', 'a', 'l', 'i', 'd', 'a', 't', 'e', 'v', 'i', 'e', 'w', 'c', 'u', 'r', 's', 'o',
    'r', ':']
/-- `"id":"setvalue"` -/
def setvalueTag : Payload :=
  ['"', 'i', 'd', '"', ':', '"', 's', 'e', 't', 'v', 'a', 'l', 'u', 'e', '"']

end Word

structure Message where
  data : Payload
  hash : Nat
deriving DecidableEq, Repr

namespace Message

/-- A message as it is constructed, without a forward token. -/
def ofText (text : Payload) : Message := ⟨text, 0⟩

variable (m : Message)

def tokens : List Payload := tokenize m.data ' '

def firstToken : Payload := m.tokens.getD 0 []

def firstTokenMatches (target : Payload) : Bool := equals m.tokens 0 target

def firstLine : Payload := m.data.takeWhile (· != '\n')

def contains (msg : Payload) : Bool := m.data.tails.any fun rest => msg.isPrefixOf rest

def jsonString : Payload :=
  match m.tokens with
  | first :: second :: _ =>
      if second.head? = some '{' ∨ second.head? = some '[' then m.data.drop first.length else []
  | _ => []

def setHash (hash : Nat) : Message := { m with hash := hash }

end Message

/-- `TileDesc::equalityHash`, on 32-bit words. -/
def TileDesc.equalityHash (t : TileDesc) : Nat :=
  let a := toUInt32 (t.canonicalViewId * 2 ^ 17) ^^^ toUInt32 t.part ^^^
    toUInt32 (t.mode * 2 ^ 30) ^^^ toUInt32 (t.width * 2 ^ 19)
  let b := toUInt32 (t.tilePosX * 2 ^ 7) ^^^ toUInt32 t.tilePosY ^^^
    toUInt32 (t.tileWidth * 2 ^ 20)
  a ^^^ b

namespace SenderQueue

/-! ## Enqueueing and dequeueing -/

/-- `std::find_if` and the erasure of what it finds; a test that throws ends it. -/
def eraseFirst (test : Message → Option Bool) : List Message →
    Option (List Message × Option Message)
  | [] => some ([], none)
  | cur :: rest =>
      (test cur).bind fun found =>
        if found then some (rest, some cur)
        else (eraseFirst test rest).map fun (left, erased) => (cur :: left, erased)

def isSameTile (newTile : TileDesc) (newTilePosHash : Nat) (cur : Message) : Option Bool :=
  if !cur.firstTokenMatches Word.tileCommand then some false
  else if newTilePosHash ≠ cur.hash then some false
  else (TileDesc.parse cur.firstLine).map fun tile => newTile.key == tile.key

section

-- The `viewId` of a JSON object; the parser throws on a text without one.
variable (viewIdOf : Payload → Option Payload)

def isSameView (viewId : Payload) (cur : Message) : Option Bool :=
  if cur.firstTokenMatches Word.invalidateviewcursor then
    (viewIdOf cur.jsonString).map fun other => viewId == other
  else some false

/-- The queue without what the item replaces, what was erased, and the item with its hash. -/
def deduplicate (queue : List Message) (item : Message) :
    Option (List Message × Option Message × Message) :=
  let command := item.firstToken
  if command = Word.tileCommand then
    (TileDesc.parse item.firstLine).bind fun newTile =>
      (eraseFirst (isSameTile newTile newTile.equalityHash) queue).map fun (left, erased) =>
        (left, erased, item.setHash newTile.equalityHash)
  else if command = Word.invalidatecursor ∨ command = Word.setpart then
    (eraseFirst (fun cur => some (cur.firstTokenMatches command)) queue).map
      fun (left, erased) => (left, erased, item)
  else if command = Word.progress then
    if item.contains Word.setvalueTag then
      (eraseFirst (fun cur =>
        some (cur.firstTokenMatches command && cur.contains Word.setvalueTag)) queue).map
          fun (left, erased) => (left, erased, item)
    else some (queue, none, item)
  else if command = Word.invalidateviewcursor then
    (viewIdOf item.jsonString).bind fun viewId =>
      (eraseFirst (isSameView viewIdOf viewId) queue).map fun (left, erased) =>
        (left, erased, item)
  else some (queue, none, item)

end

end SenderQueue

/-- The queue, with all that was enqueued and dequeued, oldest first, and what was dropped, each
message with the one that was enqueued then. -/
structure SenderQueue where
  queue : List Message
  enqueued : List Message
  dequeued : List Message
  dropped : List (Message × Message)
deriving DecidableEq, Repr

namespace SenderQueue

def empty : SenderQueue := ⟨[], [], [], []⟩

inductive Op
  | enqueue (item : Message)
  | dequeue
deriving DecidableEq, Repr

section

variable (viewIdOf : Payload → Option Payload)

/-- `enqueue`; there is no result when it throws. -/
def enqueue (s : SenderQueue) (item : Message) : Option SenderQueue :=
  (deduplicate viewIdOf s.queue item).map fun (left, erased, item) =>
    { s with
      queue := left ++ [item]
      enqueued := s.enqueued ++ [item]
      dropped := s.dropped ++ erased.toList.map (·, item) }

def dequeue (s : SenderQueue) : SenderQueue :=
  match s.queue with
  | [] => s
  | front :: queue => { s with queue := queue, dequeued := s.dequeued ++ [front] }

def step (s : SenderQueue) : Op → Option SenderQueue
  | .enqueue item => s.enqueue viewIdOf item
  | .dequeue => some s.dequeue

/-! ## The messages of which the last one counts -/

inductive Key
  | tile (fields : List Int)
  | command (name : Payload)
  | setvalue
  | viewCursor (viewId : Payload)
deriving DecidableEq, Repr

def key (m : Message) : Option Key :=
  if m.firstToken = Word.tileCommand then
    (TileDesc.parse m.firstLine).map fun tile => .tile tile.key
  else if m.firstToken = Word.invalidatecursor ∨ m.firstToken = Word.setpart then
    some (.command m.firstToken)
  else if m.firstToken = Word.progress then
    if m.contains Word.setvalueTag then some .setvalue else none
  else if m.firstToken = Word.invalidateviewcursor then
    (viewIdOf m.jsonString).map .viewCursor
  else none

/-- A tile that can be parsed, a view cursor with a view, or any other message. -/
structure WellFormed (m : Message) : Prop where
  tile : m.firstToken = Word.tileCommand → (TileDesc.parse m.firstLine).isSome = true
  view : m.firstToken = Word.invalidateviewcursor → (viewIdOf m.jsonString).isSome = true

/-- A message as it is queued: a tile carries its hash. -/
structure Stored (m : Message) : Prop extends WellFormed viewIdOf m where
  hash : ∀ tile, m.firstToken = Word.tileCommand → TileDesc.parse m.firstLine = some tile →
    m.hash = tile.equalityHash

end

/-! ## What is found in the queue -/

section

variable {viewIdOf : Payload → Option Payload} {m item : Message} {queue : List Message}

theorem firstTokenMatches_iff (m : Message) {target : Payload} (h : target ≠ []) :
    m.firstTokenMatches target = true ↔ m.firstToken = target := by
  simp only [Message.firstTokenMatches, Message.firstToken, equals, beq_iff_eq,
    List.getD_eq_getElem?_getD]
  cases m.tokens[0]? with
  | none => simpa using h.symm
  | some token => simp

theorem equalityHash_of_key {t t' : TileDesc} (h : t.key = t'.key) :
    t.equalityHash = t'.equalityHash := by
  simp only [TileDesc.key, TileDesc.keyAt, List.cons.injEq] at h
  obtain ⟨hview, -, hmode, hpart, -, hwidth, -, htileWidth, hposY, hposX, -⟩ := h
  simp only [TileDesc.equalityHash, hview, hmode, hpart, hwidth, htileWidth, hposY, hposX]

theorem commands_ne : Word.progress ≠ Word.tileCommand ∧
    Word.invalidateviewcursor ≠ Word.tileCommand ∧ Word.invalidateviewcursor ≠ Word.progress ∧
    ∀ name, name = Word.invalidatecursor ∨ name = Word.setpart →
      name ≠ Word.tileCommand ∧ name ≠ Word.progress ∧ name ≠ Word.invalidateviewcursor := by
  refine ⟨by decide, by decide, by decide, ?_⟩
  rintro name (rfl | rfl) <;> decide

theorem key_eq_tile_iff {fields : List Int} :
    key viewIdOf m = some (.tile fields) ↔ m.firstToken = Word.tileCommand ∧
      ∃ tile, TileDesc.parse m.firstLine = some tile ∧ tile.key = fields := by
  simp only [key]
  split_ifs <;> simp_all

theorem key_eq_command_iff {name : Payload} :
    key viewIdOf m = some (.command name) ↔
      m.firstToken = name ∧ (name = Word.invalidatecursor ∨ name = Word.setpart) := by
  have hne := commands_ne
  simp only [key]
  split_ifs <;> simp <;> grind

theorem key_eq_setvalue_iff :
    key viewIdOf m = some .setvalue ↔
      m.firstToken = Word.progress ∧ m.contains Word.setvalueTag = true := by
  have hne := commands_ne
  simp only [key]
  split_ifs <;> simp <;> grind

theorem key_eq_viewCursor_iff {viewId : Payload} :
    key viewIdOf m = some (.viewCursor viewId) ↔
      m.firstToken = Word.invalidateviewcursor ∧ viewIdOf m.jsonString = some viewId := by
  have hne := commands_ne
  simp only [key]
  split_ifs <;> simp <;> grind

/-- A test that throws on no queued message finds the first one that meets it. -/
theorem eraseFirst_eq {test : Message → Option Bool} {p : Message → Bool}
    (h : ∀ cur ∈ queue, test cur = some (p cur)) :
    eraseFirst test queue = some (queue.eraseP p, queue.find? p) := by
  induction queue with
  | nil => rfl
  | cons cur rest ih =>
      have hrest := ih fun other hother => h other (by simp [hother])
      have hcur := h cur (by simp)
      by_cases hp : p cur = true
      · simp [eraseFirst, hcur, hp]
      · simp [eraseFirst, hcur, hp, hrest]

/-- A test for the item's key erases what the item replaces. -/
theorem eraseFirst_key {k : Key} {test : Message → Option Bool}
    (hkey : key viewIdOf item = some k) (hone : (queue.filterMap (key viewIdOf)).Nodup)
    (htest : ∀ cur ∈ queue, test cur = some (decide (key viewIdOf cur = some k))) :
    ∃ erased, eraseFirst test queue =
        some (queue.filter (staysFor (key viewIdOf) item), erased) ∧
      erased.toList.map (·, item) = replacedBy (key viewIdOf) queue item := by
  have hp : ∀ cur ∈ queue,
      decide (key viewIdOf cur = some k) = true ↔ key viewIdOf cur = some k :=
    fun cur _ => decide_eq_true_iff
  refine ⟨queue.find? fun cur => decide (key viewIdOf cur = some k), ?_, ?_⟩
  · rw [eraseFirst_eq htest, eraseP_eq_filter hkey hone hp]
  · rw [find?_eq_filter hkey hone hp]
    rfl

theorem isSameTile_eq {newTile : TileDesc} (h : Stored viewIdOf m) :
    isSameTile newTile newTile.equalityHash m =
      some (decide (key viewIdOf m = some (.tile newTile.key))) := by
  have htoken := firstTokenMatches_iff m (show Word.tileCommand ≠ [] by decide)
  by_cases hfirst : m.firstToken = Word.tileCommand
  · obtain ⟨tile, htile⟩ := Option.isSome_iff_exists.mp (h.tile hfirst)
    have hkey : key viewIdOf m = some (.tile tile.key) :=
      key_eq_tile_iff.mpr ⟨hfirst, tile, htile, rfl⟩
    by_cases hhash : newTile.equalityHash = tile.equalityHash
    · simp [isSameTile, htoken.mpr hfirst, h.hash tile hfirst htile, hhash, htile, hkey, eq_comm,
        Bool.beq_eq_decide_eq]
    · have hne : ¬ tile.key = newTile.key := fun heq => hhash (equalityHash_of_key heq.symm)
      simp [isSameTile, htoken.mpr hfirst, h.hash tile hfirst htile, hhash, hkey, hne]
  · have hmatch : m.firstTokenMatches Word.tileCommand = false := by
      simpa using fun hm => hfirst (htoken.mp hm)
    have hkey : key viewIdOf m ≠ some (.tile newTile.key) :=
      fun hk => hfirst (key_eq_tile_iff.mp hk).1
    simp [isSameTile, hmatch, hkey]

theorem isSameView_eq {viewId : Payload} (h : Stored viewIdOf m) :
    isSameView viewIdOf viewId m =
      some (decide (key viewIdOf m = some (.viewCursor viewId))) := by
  have htoken := firstTokenMatches_iff m (show Word.invalidateviewcursor ≠ [] by decide)
  by_cases hfirst : m.firstToken = Word.invalidateviewcursor
  · obtain ⟨other, hother⟩ := Option.isSome_iff_exists.mp (h.view hfirst)
    have hkey : key viewIdOf m = some (.viewCursor other) :=
      key_eq_viewCursor_iff.mpr ⟨hfirst, hother⟩
    simp [isSameView, htoken.mpr hfirst, hother, hkey, eq_comm, Bool.beq_eq_decide_eq]
  · have hmatch : m.firstTokenMatches Word.invalidateviewcursor = false := by
      simpa using fun hm => hfirst (htoken.mp hm)
    have hkey : key viewIdOf m ≠ some (.viewCursor viewId) :=
      fun hk => hfirst (key_eq_viewCursor_iff.mp hk).1
    simp [isSameView, hmatch, hkey]

theorem replacedBy_of_none (hkey : key viewIdOf item = none) :
    replacedBy (key viewIdOf) queue item = [] := by
  have hnone : queue.filter (fun cur => !staysFor (key viewIdOf) item cur) = [] := by
    apply List.filter_eq_nil_iff.mpr
    intro cur _
    cases hcur : key viewIdOf cur <;> simp [staysFor, hkey, hcur]
  simp [replacedBy, hnone]

theorem wellFormed_of_deduplicate {r : List Message × Option Message × Message}
    (h : deduplicate viewIdOf queue item = some r) : WellFormed viewIdOf item := by
  constructor
  · intro hfirst
    simp only [deduplicate, hfirst, if_true] at h
    obtain ⟨tile, htile, -⟩ := Option.bind_eq_some_iff.mp h
    simp [htile]
  · intro hfirst
    have hne := commands_ne
    have hcommand : ¬ (Word.invalidateviewcursor = Word.invalidatecursor ∨
        Word.invalidateviewcursor = Word.setpart) := by decide
    simp only [deduplicate, hfirst, hne.2.1, hne.2.2.1, hcommand, if_false, if_true] at h
    obtain ⟨viewId, hview, -⟩ := Option.bind_eq_some_iff.mp h
    simp [hview]

/-- A well-formed item leaves the queue without what it replaces. -/
theorem deduplicate_eq (hqueue : ∀ cur ∈ queue, Stored viewIdOf cur)
    (hone : (queue.filterMap (key viewIdOf)).Nodup) (hitem : WellFormed viewIdOf item) :
    ∃ erased item', deduplicate viewIdOf queue item =
        some (queue.filter (staysFor (key viewIdOf) item'), erased, item') ∧
      erased.toList.map (·, item') = replacedBy (key viewIdOf) queue item' ∧
      Stored viewIdOf item' ∧ item'.data = item.data := by
  have hother (hfirst : item.firstToken ≠ Word.tileCommand) : Stored viewIdOf item :=
    ⟨hitem, fun _ h => absurd h hfirst⟩
  by_cases htile : item.firstToken = Word.tileCommand
  · obtain ⟨newTile, hparse⟩ := Option.isSome_iff_exists.mp (hitem.tile htile)
    have hkey : key viewIdOf (item.setHash newTile.equalityHash) = some (.tile newTile.key) :=
      key_eq_tile_iff.mpr ⟨htile, newTile, hparse, rfl⟩
    obtain ⟨erased, herase, hreplaced⟩ :=
      eraseFirst_key hkey hone fun cur hcur => isSameTile_eq (hqueue cur hcur)
    refine ⟨erased, _, ?_, hreplaced, ⟨⟨hitem.tile, hitem.view⟩, ?_⟩, rfl⟩
    · simp [deduplicate, htile, hparse, herase]
    · intro tile _ htile'
      rw [Option.some.inj (htile'.symm.trans hparse)]
      rfl
  by_cases hcommand : item.firstToken = Word.invalidatecursor ∨ item.firstToken = Word.setpart
  · have hkey : key viewIdOf item = some (.command item.firstToken) :=
      key_eq_command_iff.mpr ⟨rfl, hcommand⟩
    have hne : item.firstToken ≠ [] := by rcases hcommand with h | h <;> rw [h] <;> decide
    have htest : ∀ cur ∈ queue, some (cur.firstTokenMatches item.firstToken) =
        some (decide (key viewIdOf cur = some (.command item.firstToken))) := by
      intro cur _
      simp only [key_eq_command_iff, hcommand, and_true, ← firstTokenMatches_iff _ hne,
        Bool.decide_eq_true]
    obtain ⟨erased, herase, hreplaced⟩ := eraseFirst_key hkey hone htest
    refine ⟨erased, item, ?_, hreplaced, hother htile, rfl⟩
    simp [deduplicate, htile, hcommand, herase]
  by_cases hprogress : item.firstToken = Word.progress
  · by_cases hset : item.contains Word.setvalueTag = true
    · have hkey : key viewIdOf item = some .setvalue := key_eq_setvalue_iff.mpr ⟨hprogress, hset⟩
      have htest : ∀ cur ∈ queue,
          some (cur.firstTokenMatches Word.progress && cur.contains Word.setvalueTag) =
            some (decide (key viewIdOf cur = some .setvalue)) := by
        intro cur _
        have hne : Word.progress ≠ [] := by decide
        simp only [key_eq_setvalue_iff, ← firstTokenMatches_iff _ hne, ← Bool.and_eq_true,
          Bool.decide_eq_true]
      obtain ⟨erased, herase, hreplaced⟩ := eraseFirst_key hkey hone htest
      refine ⟨erased, item, ?_, hreplaced, hother htile, rfl⟩
      rw [hprogress] at htile hcommand
      simp [deduplicate, hprogress, htile, hcommand, hset, herase]
    · have hkey : key viewIdOf item = none := by
        rw [hprogress] at htile hcommand
        simp [key, hprogress, htile, hcommand, hset]
      refine ⟨none, item, ?_, (replacedBy_of_none hkey).symm, hother htile, rfl⟩
      rw [hprogress] at htile hcommand
      simp [deduplicate, hprogress, htile, hcommand, hset, filter_staysFor_of_none _ hkey]
  by_cases hview : item.firstToken = Word.invalidateviewcursor
  · obtain ⟨viewId, hid⟩ := Option.isSome_iff_exists.mp (hitem.view hview)
    have hkey : key viewIdOf item = some (.viewCursor viewId) :=
      key_eq_viewCursor_iff.mpr ⟨hview, hid⟩
    obtain ⟨erased, herase, hreplaced⟩ :=
      eraseFirst_key hkey hone fun cur hcur => isSameView_eq (hqueue cur hcur)
    refine ⟨erased, item, ?_, hreplaced, hother htile, rfl⟩
    rw [hview] at htile hcommand hprogress
    simp [deduplicate, hview, htile, hcommand, hprogress, hid, herase]
  · have hkey : key viewIdOf item = none := by simp [key, htile, hcommand, hprogress, hview]
    refine ⟨none, item, ?_, (replacedBy_of_none hkey).symm, hother htile, rfl⟩
    simp [deduplicate, htile, hcommand, hprogress, hview, filter_staysFor_of_none _ hkey]

end

/-! ## Runs -/

section

variable {viewIdOf : Payload → Option Payload} {s s' : SenderQueue}

/-- The queue as one that keeps the latest message of each key. -/
def log (s : SenderQueue) : Log Message := ⟨s.queue, s.enqueued, s.dequeued⟩

structure Deduplicated (viewIdOf : Payload → Option Payload) (s : SenderQueue) : Prop where
  latest : KeepsLatest (key viewIdOf) s.log
  accounts : Accounts (key viewIdOf) s.log s.dropped
  stored : ∀ m ∈ s.queue, Stored viewIdOf m

theorem Deduplicated.empty : Deduplicated viewIdOf empty :=
  ⟨KeepsLatest.empty, Accounts.empty, by simp [SenderQueue.empty]⟩

theorem Deduplicated.enqueue (h : Deduplicated viewIdOf s) {item : Message}
    (hs : s.enqueue viewIdOf item = some s') : Deduplicated viewIdOf s' := by
  obtain ⟨r, hr, -⟩ := Option.map_eq_some_iff.mp hs
  obtain ⟨erased, stored, hdedup, herased, hstored, -⟩ :=
    deduplicate_eq h.stored h.latest.one (wellFormed_of_deduplicate hr)
  simp only [SenderQueue.enqueue, hdedup, Option.map_some, Option.some.injEq, herased] at hs
  subst hs
  refine ⟨h.latest.post stored, h.accounts.post stored, ?_⟩
  intro m hm
  rcases List.mem_append.mp hm with hold | hnew
  · exact h.stored m (List.mem_of_mem_filter hold)
  · rw [List.mem_singleton.mp hnew]
    exact hstored

theorem Deduplicated.dequeue (h : Deduplicated viewIdOf s) : Deduplicated viewIdOf s.dequeue := by
  cases hqueue : s.queue with
  | nil => simpa [SenderQueue.dequeue, hqueue] using h
  | cons front queue =>
      simp only [SenderQueue.dequeue, hqueue]
      refine ⟨h.latest.fetch hqueue, h.accounts.fetch hqueue, fun m hm => h.stored m ?_⟩
      rw [hqueue]
      exact List.mem_cons_of_mem _ hm

theorem Deduplicated.step {op : Op} (h : Deduplicated viewIdOf s)
    (hs : step viewIdOf s op = some s') : Deduplicated viewIdOf s' := by
  cases op with
  | enqueue item => exact h.enqueue hs
  | dequeue =>
      cases hs
      exact h.dequeue

theorem deduplicated_of_run {ops : List Op} (hrun : run (step viewIdOf) empty ops = some s) :
    Deduplicated viewIdOf s :=
  run_invariant _ (fun _ _ _ hs h => h.step hs) hrun Deduplicated.empty

/-- A well-formed message can always be enqueued, and is then the last one in the queue. -/
theorem Deduplicated.exists_enqueue (h : Deduplicated viewIdOf s) {item : Message}
    (hitem : WellFormed viewIdOf item) :
    ∃ s' stored, s.enqueue viewIdOf item = some s' ∧ stored.data = item.data ∧
      s'.queue = post (key viewIdOf) s.queue stored := by
  obtain ⟨erased, stored, hdedup, -, -, hdata⟩ := deduplicate_eq h.stored h.latest.one hitem
  simp only [SenderQueue.enqueue, hdedup, Option.map_some, Option.some.injEq, ↓existsAndEq,
    true_and]
  exact ⟨stored, hdata, rfl⟩

/-- In every run the queue holds one message at most of each tile, of each cursor and part command,
of each view and of the set values of a progress; all other messages are sent once and in order,
and each dropped one has a later one of its key that is not dropped. -/
theorem queue_deduplicated {ops : List Op} (hrun : run (step viewIdOf) empty ops = some s) :
    KeepsLatest (key viewIdOf) s.log ∧ Accounts (key viewIdOf) s.log s.dropped ∧
      ∀ item, WellFormed viewIdOf item →
        ∃ s' stored, s.enqueue viewIdOf item = some s' ∧ stored.data = item.data ∧
          s'.queue = post (key viewIdOf) s.queue stored := by
  have h := deduplicated_of_run hrun
  exact ⟨h.latest, h.accounts, fun _ hitem => h.exists_enqueue hitem⟩

/-- The `viewId` of a JSON that starts with it. -/
def leadingViewId (json : Payload) : Option Payload :=
  let start := " \x7b \"viewId\": \"".toList
  if start.isPrefixOf json then some ((json.drop start.length).takeWhile (· != '"')) else none

/-- A tile that comes again, cursors of two views, one of which moves, and a progress. -/
def messages : List Op :=
  let tile := "tile: nviewid=0 part=0 width=180 height=135 tileposx=0 tileposy=0 " ++
    "tilewidth=15875 tileheight=11906 ver="
  [.enqueue (.ofText (tile ++ "-1").toList), .enqueue (.ofText "setpart: part=1".toList),
    .enqueue (.ofText "invalidateviewcursor: \x7b \"viewId\": \"1\" \x7d".toList),
    .enqueue (.ofText "progress: \x7b \"id\":\"setvalue\", \"value\": 20 \x7d".toList),
    .enqueue (.ofText "invalidateviewcursor: \x7b \"viewId\": \"2\" \x7d".toList), .dequeue,
    .enqueue (.ofText (tile ++ "1").toList),
    .enqueue (.ofText "statechanged: .uno:Bold=true".toList),
    .enqueue (.ofText "invalidateviewcursor: \x7b \"viewId\": \"1\" \x7d".toList),
    .enqueue (.ofText "progress: \x7b \"id\":\"setvalue\", \"value\": 40 \x7d".toList),
    .enqueue (.ofText (tile ++ "2").toList), .enqueue (.ofText "setpart: part=0".toList)]

theorem queue_deduplicated_messages :
    ∃ s, run (step leadingViewId) empty messages = some s ∧
      (s.queue.length = 6 ∧ s.dropped.length = 4) ∧
      KeepsLatest (key leadingViewId) s.log ∧ Accounts (key leadingViewId) s.log s.dropped ∧
      ∀ item, WellFormed leadingViewId item →
        ∃ s' stored, s.enqueue leadingViewId item = some s' ∧ stored.data = item.data ∧
          s'.queue = post (key leadingViewId) s.queue stored := by
  obtain ⟨s, hrun, hlength⟩ := run_reaches (step leadingViewId) empty messages
    (P := fun s => s.queue.length = 6 ∧ s.dropped.length = 4) (by decide +kernel)
  exact ⟨s, hrun, hlength, queue_deduplicated hrun⟩

end

end SenderQueue

end CoolOnline
