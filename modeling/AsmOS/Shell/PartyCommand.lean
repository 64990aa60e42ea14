import AsmOS.Net.RoomInfo
import AsmOS.Shell.NextWord
import AsmOS.Shell.WordCommands

/-
  The `party` command of the shell (`src/shell.c`).

  The command takes its words with `next_word`, and uses two
  of them.  A message of several words is therefore sent up
  to its first blank only.

  Main declarations:
    * `PartyRequest`, `partyRequest`, `cmdParty`
    * `HoldsString`, `partyChat_congr`
    * `partyOnWords`, `cmdParty_words`
-/

------------------------------------------------------------
-- The Command
------------------------------------------------------------

namespace AsmOS

namespace Shell

open ByteMem Net TokenCopy Words

/- The calls of the command; a null pointer is no string. -/
inductive PartyRequest where
| create (name : Option ByteMem)
| invite (ip : ByteMem)
| list
| join
| leave
| chat (msg : ByteMem)

/- The frame that the driver was given, and the node. -/
structure PartyEffect where
  frame : Option (List UInt8)
  node : Node

def partyEffect
    (called : Called) : PartyEffect :=
  ⟨called.frame, called.node⟩

/- `packet` waits in the driver when the party is listed. -/
def PartyRequest.run
    (driver : List UInt8 → Int)
    (packet : List UInt8)
    (node : Node) : PartyRequest → PartyEffect
| .create name => partyEffect (partyCreate driver name node)
| .invite ip => partyEffect (partyInvite driver (some ip) node)
| .list =>
    let polled := partyPoll packet node
    ⟨polled.ack, polled.node⟩
| .join => partyEffect (partyJoin driver node)
| .leave => partyEffect (partyLeave driver node)
| .chat msg => partyEffect (partyChat driver (some msg) node)

/- `name[0] ? name : NULL`. -/
def notEmpty
    (p : ByteMem) : Option ByteMem :=
  if p 0 = 0 then none else some p

/- The subcommands, with what is left behind their names. -/
def partyRequest
    (sub rest : List UInt8)
    (buf : ByteMem) : Option PartyRequest :=
  if sameText sub "create" then
    some (.create (notEmpty (nextWord rest buf 32).2))
  else if sameText sub "invite" then
    (notEmpty (nextWord rest buf 16).2).map .invite
  else if sameText sub "list" then some .list
  else if sameText sub "join" then some .join
  else if sameText sub "leave" then some .leave
  else if sameText sub "chat" then
    (notEmpty (nextWord rest buf 128).2).map .chat
  else none

/- `cmd_party`; the buffers have any contents before. -/
def cmdParty
    (driver : List UInt8 → Int)
    (packet : List UInt8)
    (bufs : Nat → ByteMem)
    (args : List UInt8)
    (node : Node) : PartyEffect :=
  let first := nextWord args (bufs 0) 32
  if first.2 0 = 0 then ⟨none, node⟩
  else
    match partyRequest (stringIn first.2 32) first.1 (bufs 1) with
    | none => ⟨none, partyInit node⟩
    | some request => request.run driver packet (partyInit node)

------------------------------------------------------------
-- Strings Of The Calls
------------------------------------------------------------

/- The memory holds a string and its end. -/
structure HoldsString
    (p : ByteMem)
    (w : List UInt8) : Prop where
  text : p.slice 0 w.length = w
  stop : p w.length = 0
  ended : 0 ∉ w

section Strings

variable {p q : ByteMem} {w : List UInt8} {n : Nat}

theorem stored_holdsString
    (buf : ByteMem)
    (hEnded : 0 ∉ w) :
    HoldsString (stored w buf) w := by
  refine ⟨?_, storeByte_self _ _ 0, hEnded⟩
  have hText := slice_stored w buf
  refine Eq.trans (slice_congr fun i hi => ?_) hText
  rw [Nat.zero_add]
  unfold stored storeByte
  exact storeBlock_outside (.inl hi)

theorem ofList_holdsString
    (hEnded : 0 ∉ w) :
    HoldsString (ofList w) w := by
  refine ⟨slice_ofList w, ?_, hEnded⟩
  unfold ofList
  exact List.getD_eq_default _ _ (Nat.le_refl _)

theorem HoldsString.agreeOn
    (hp : HoldsString p w)
    (hq : HoldsString q w) :
    AgreeOn p q 0 (w.length + 1) := by
  have hSame := slice_eq_iff.mp (hp.text.trans hq.text.symm)
  intro i _ hi
  by_cases hLast : i = w.length
  · rw [hLast, hp.stop, hq.stop]
  · have hByte := hSame i (by omega)
    rwa [Nat.zero_add] at hByte

theorem HoldsString.strnlen_eq
    (hp : HoldsString p w)
    (hFits : w.length ≤ n) :
    strnlen p n = w.length := by
  rw [strnlen_eq_length]
  rcases Nat.lt_or_eq_of_le hFits with hLess | hSame
  · rw [stringIn_eq hp.text hp.stop hp.ended hLess]
  · unfold stringIn
    rw [← hSame, hp.text, List.takeWhile_eq_self_iff.mpr]
    intro b hMem
    exact decide_eq_true fun hZero => hp.ended (hZero ▸ hMem)

theorem HoldsString.head_iff
    (hp : HoldsString p w) :
    p 0 = 0 ↔ w = [] := by
  cases w with
  | nil => exact iff_of_true hp.stop rfl
  | cons b w =>
      have hHead := hp.agreeOn (ofList_holdsString hp.ended) 0
        (Nat.le_refl 0) (Nat.succ_pos _)
      rw [hHead]
      refine iff_of_false (fun hZero => hp.ended ?_)
        (List.cons_ne_nil b w)
      have hByte : b = 0 := hZero
      rw [hByte]
      exact List.mem_cons_self

/- A copy of the string reads no further than to its end. -/
theorem copy_congr
    (hp : HoldsString p w)
    (hq : HoldsString q w)
    (hFits : w.length ≤ n)
    (m : ByteMem) :
    storeByte (storeBlock m 0 (strnlen p n) p) (strnlen p n) 0 =
      storeByte (storeBlock m 0 (strnlen q n) q)
        (strnlen q n) 0 := by
  rw [hp.strnlen_eq hFits, hq.strnlen_eq hFits]
  have hAgree := (hp.agreeOn hq).mono (Nat.le_refl 0)
    (Nat.le_succ w.length)
  rw [storeBlock_congr hAgree]

/- What is sent of a string is it and its end. -/
theorem HoldsString.payload_eq
    (hp : HoldsString p w)
    (hFits : w.length ≤ n) :
    p.slice 0 (strnlen p n + 1) = w ++ [0] := by
  have hLast : p.slice w.length 1 = [0] := by
    rw [slice_succ, hp.stop]
    rfl
  rw [hp.strnlen_eq hFits, ← slice_append, hp.text, Nat.zero_add,
    hLast]

theorem partyCreate_congr
    (hp : HoldsString p w)
    (hq : HoldsString q w)
    (hFits : w.length ≤ roomNameMax - 1)
    (driver : List UInt8 → Int)
    (node : Node) :
    partyCreate driver (notEmpty p) node =
      partyCreate driver (notEmpty q) node := by
  have hName : roomName (notEmpty p) = roomName (notEmpty q) := by
    unfold notEmpty
    simp only [hp.head_iff, hq.head_iff]
    split_ifs
    · rfl
    · exact copy_congr hp hq hFits zeros
  unfold partyCreate
  rw [hName]

theorem partyInvite_congr
    (hp : HoldsString p w)
    (hq : HoldsString q w)
    (hFits : w.length ≤ ipStrMax - 1)
    (driver : List UInt8 → Int)
    (node : Node) :
    partyInvite driver (some p) node =
      partyInvite driver (some q) node := by
  have hRoom : appendMember node.room p = appendMember node.room q := by
    unfold appendMember copyIp
    dsimp only
    rw [copy_congr hp hq hFits]
  unfold partyInvite
  dsimp only
  rw [hp.payload_eq hFits, hq.payload_eq hFits, hRoom]

theorem partyChat_congr
    (hp : HoldsString p w)
    (hq : HoldsString q w)
    (hFits : w.length ≤ chatMsgMax - 1)
    (driver : List UInt8 → Int)
    (node : Node) :
    partyChat driver (some p) node =
      partyChat driver (some q) node := by
  unfold partyChat
  dsimp only
  rw [hp.payload_eq hFits, hq.payload_eq hFits]

end Strings

------------------------------------------------------------
-- The Command On Words
------------------------------------------------------------

/- What the command does, by the first two words. -/
def partyOnWords
    (driver : List UInt8 → Int)
    (packet : List UInt8)
    (sub word : List UInt8)
    (node : Node) : PartyEffect :=
  if sub = [] then ⟨none, node⟩
  else
    let node := partyInit node
    if sub = ascii "create" then
      partyEffect
        (partyCreate driver (notEmpty (ofList (word.take 31))) node)
    else if sub = ascii "invite" then
      if word = [] then ⟨none, node⟩
      else
        partyEffect
          (partyInvite driver (some (ofList (word.take 15))) node)
    else if sub = ascii "list" then
      PartyRequest.run driver packet node .list
    else if sub = ascii "join" then
      partyEffect (partyJoin driver node)
    else if sub = ascii "leave" then
      partyEffect (partyLeave driver node)
    else if sub = ascii "chat" then
      if word = [] then ⟨none, node⟩
      else
        partyEffect
          (partyChat driver (some (ofList (word.take 127))) node)
    else ⟨none, node⟩

section Words

variable {args : List UInt8}

theorem argWord_zero
    (args : List UInt8) :
    argWord args 0 = firstWord isBlank args :=
  getD_words isBlank args 0

theorem argWord_one
    (args : List UInt8) :
    argWord args 1 = firstWord isBlank (afterWord isBlank args) :=
  getD_words isBlank args 1

theorem ended_argWord_zero
    (hEnded : 0 ∉ args) :
    0 ∉ argWord args 0 := by
  rw [argWord_zero]
  exact fun hMem => hEnded (mem_of_mem_firstWord hMem)

theorem ended_argWord_one
    (hEnded : 0 ∉ args) :
    0 ∉ argWord args 1 := by
  rw [argWord_one]
  exact fun hMem =>
    hEnded (mem_of_mem_afterWord (mem_of_mem_firstWord hMem))

/- The first call stores the first word, cut. -/
theorem nextWord_first
    (args : List UInt8)
    (buf : ByteMem) :
    (nextWord args buf 32).2 =
      stored ((argWord args 0).take 31) buf := by
  rw [nextWord_eq (by decide), argWord_zero]
  rfl

/- Behind a first word that fits, the second is stored. -/
theorem nextWord_second
    (hFits : (argWord args 0).length ≤ 31)
    (buf buf' : ByteMem)
    {size : UInt32}
    (hSize : 1 ≤ size) :
    (nextWord (nextWord args buf 32).1 buf' size).2 =
      stored ((argWord args 1).take (size.toNat - 1)) buf' := by
  rw [argWord_zero] at hFits
  rw [nextWord_fits (by decide) hFits, nextWord_eq hSize,
    argWord_one]
  rfl

theorem take_eq_short_iff
    {w l : List UInt8}
    {n : Nat}
    (hShort : l.length < n) :
    w.take n = l ↔ w = l := by
  constructor
  · rintro rfl
    rw [List.length_take] at hShort
    exact (List.take_of_length_le (by omega)).symm
  · rintro rfl
    exact List.take_of_length_le (Nat.le_of_lt hShort)

/- A subcommand is known by the whole of the first word. -/
theorem sameText_first_iff
    (hEnded : 0 ∉ args)
    (buf : ByteMem)
    {name : String}
    (hName : 0 ∉ ascii name)
    (hShort : (ascii name).length < 31) :
    sameText (stringIn (nextWord args buf 32).2 32) name = true ↔
      argWord args 0 = ascii name := by
  have hStored :
      stringIn (nextWord args buf 32).2 32 =
        (argWord args 0).take 31 := by
    rw [argWord_zero]
    exact stringIn_nextWord (by decide) hEnded buf
  have hCut : 0 ∉ (argWord args 0).take 31 := fun hMem =>
    ended_argWord_zero hEnded (List.mem_of_mem_take hMem)
  unfold sameText
  rw [hStored, decide_eq_true_iff,
    ksstrcmp_eq_zero_iff hCut hName, take_eq_short_iff hShort]

theorem take_eq_nil_iff_of_pos
    {w : List UInt8}
    {n : Nat}
    (hPos : 0 < n) :
    w.take n = [] ↔ w = [] := by
  rw [List.take_eq_nil_iff]
  exact or_iff_right (Nat.ne_of_gt hPos)

/- A buffer is empty if there is no word. -/
theorem notEmpty_taken
    {w : List UInt8}
    {n : Nat}
    (hPos : 0 < n)
    (hEnded : 0 ∉ w)
    (buf : ByteMem) :
    notEmpty (stored (w.take n) buf) =
      if w = [] then none else some (stored (w.take n) buf) := by
  have hCut : 0 ∉ w.take n := fun hMem =>
    hEnded (List.mem_of_mem_take hMem)
  unfold notEmpty
  exact if_congr
    ((stored_holdsString buf hCut).head_iff.trans
      (take_eq_nil_iff_of_pos hPos)) rfl rfl

/- No first word is seen by its first byte. -/
theorem first_empty_iff
    (hEnded : 0 ∉ args)
    (buf : ByteMem) :
    (nextWord args buf 32).2 0 = 0 ↔ argWord args 0 = [] := by
  have hCut : 0 ∉ (argWord args 0).take 31 := fun hMem =>
    ended_argWord_zero hEnded (List.mem_of_mem_take hMem)
  rw [nextWord_first, (stored_holdsString buf hCut).head_iff,
    take_eq_nil_iff_of_pos (by decide)]

/- The word behind a subcommand, in a buffer of any size. -/
theorem second_stored
    {name : String}
    (hName : argWord args 0 = ascii name)
    (hShort : (ascii name).length < 31)
    (bufs : Nat → ByteMem)
    (size : UInt32)
    (n : Nat)
    (hSize : size.toNat = n + 1) :
    (nextWord (nextWord args (bufs 0) 32).1 (bufs 1) size).2 =
      stored ((argWord args 1).take n) (bufs 1) := by
  have hRoom : 1 ≤ size := by
    rw [UInt32.le_iff_toNat_le, hSize]
    exact Nat.succ_pos n
  have hFits : (argWord args 0).length ≤ 31 := by
    rw [hName]
    exact Nat.le_of_lt hShort
  rw [nextWord_second hFits (bufs 0) (bufs 1) hRoom, hSize,
    Nat.add_sub_cancel]

/- Each subcommand by cases, as the source compares them. -/
theorem cmdParty_eq
    (driver : List UInt8 → Int)
    (packet : List UInt8)
    (bufs : Nat → ByteMem)
    (args : CString)
    (node : Node) :
    cmdParty driver packet bufs args.chars node =
      partyOnWords driver packet (argWord args.chars 0)
        (argWord args.chars 1) node := by
  have hEnded := ended_argWord_one args.ended
  have hCut : ∀ n, 0 ∉ (argWord args.chars 1).take n :=
    fun n hMem => hEnded (List.mem_of_mem_take hMem)
  have hFirst := first_empty_iff args.ended (bufs 0)
  have hSub :
      ∀ name : String, 0 ∉ ascii name → (ascii name).length < 31 →
        (sameText (stringIn (nextWord args.chars (bufs 0) 32).2 32)
            name = true ↔
          argWord args.chars 0 = ascii name) :=
    fun _ hName hShort =>
      sameText_first_iff args.ended (bufs 0) hName hShort
  unfold cmdParty partyOnWords
  dsimp only
  by_cases hEmpty : argWord args.chars 0 = []
  · rw [if_pos hEmpty, if_pos (hFirst.mpr hEmpty)]
  rw [if_neg hEmpty, if_neg (mt hFirst.mp hEmpty)]
  unfold partyRequest
  simp only [hSub "create" (by decide) (by decide),
    hSub "invite" (by decide) (by decide),
    hSub "list" (by decide) (by decide),
    hSub "join" (by decide) (by decide),
    hSub "leave" (by decide) (by decide),
    hSub "chat" (by decide) (by decide)]
  by_cases hCreate : argWord args.chars 0 = ascii "create"
  · rw [if_pos hCreate, if_pos hCreate,
      second_stored hCreate (by decide) bufs 32 31 rfl]
    exact congrArg partyEffect
      (partyCreate_congr (stored_holdsString _ (hCut 31))
        (ofList_holdsString (hCut 31))
        (List.length_take_le 31 _) driver _)
  rw [if_neg hCreate, if_neg hCreate]
  by_cases hInvite : argWord args.chars 0 = ascii "invite"
  · rw [if_pos hInvite, if_pos hInvite,
      second_stored hInvite (by decide) bufs 16 15 rfl,
      notEmpty_taken (by decide) hEnded]
    by_cases hNone : argWord args.chars 1 = []
    · rw [if_pos hNone, if_pos hNone]
      rfl
    · rw [if_neg hNone, if_neg hNone]
      exact congrArg partyEffect
        (partyInvite_congr (stored_holdsString _ (hCut 15))
          (ofList_holdsString (hCut 15))
          (List.length_take_le 15 _) driver _)
  rw [if_neg hInvite, if_neg hInvite]
  by_cases hList : argWord args.chars 0 = ascii "list"
  · rw [if_pos hList, if_pos hList]
  rw [if_neg hList, if_neg hList]
  by_cases hJoin : argWord args.chars 0 = ascii "join"
  · rw [if_pos hJoin, if_pos hJoin]
    rfl
  rw [if_neg hJoin, if_neg hJoin]
  by_cases hLeave : argWord args.chars 0 = ascii "leave"
  · rw [if_pos hLeave, if_pos hLeave]
    rfl
  rw [if_neg hLeave, if_neg hLeave]
  by_cases hChat : argWord args.chars 0 = ascii "chat"
  · rw [if_pos hChat, if_pos hChat,
      second_stored hChat (by decide) bufs 128 127 rfl,
      notEmpty_taken (by decide) hEnded]
    by_cases hNone : argWord args.chars 1 = []
    · rw [if_pos hNone, if_pos hNone]
      rfl
    · rw [if_neg hNone, if_neg hNone]
      exact congrArg partyEffect
        (partyChat_congr (stored_holdsString _ (hCut 127))
          (ofList_holdsString (hCut 127))
          (List.length_take_le 127 _) driver _)
  rw [if_neg hChat, if_neg hChat]

end Words

/-
  The command is a function of the first two words of its
  arguments: neither what follows them nor the blanks between
  them nor the old contents of its buffers count.  So a chat
  message is sent up to its first blank.
-/
theorem cmdParty_words
    (driver : List UInt8 → Int)
    (packet : List UInt8)
    (bufs : Nat → ByteMem)
    (args : CString)
    (node : Node) :
    let sub := argWord args.chars 0
    let word := argWord args.chars 1
    let got := cmdParty driver packet bufs args.chars node
    got = partyOnWords driver packet sub word node ∧
      (sub = ascii "chat" → word ≠ [] →
        node.partyInitialized = true → node.room.inRoom = true →
          got.frame =
            (sendPartyMsg driver node msgChat
              (word.take 127 ++ [0])).1) := by
  intro sub word got
  have hCut : 0 ∉ word.take 127 := fun hMem =>
    ended_argWord_one args.ended (List.mem_of_mem_take hMem)
  have hSame :
      got = partyOnWords driver packet sub word node :=
    cmdParty_eq driver packet bufs args node
  refine ⟨hSame, fun hChat hSome hInit hRoom => ?_⟩
  have hNode : partyInit node = node := if_pos hInit
  have hHolds := ofList_holdsString hCut
  have hLength : (word.take 127).length ≤ chatMsgMax - 1 :=
    List.length_take_le 127 word
  have hPayload := hHolds.payload_eq hLength
  have hOpen :
      ¬ (¬ node.partyInitialized ∨ ¬ node.room.inRoom) :=
    fun hNot => hNot.elim (fun h => h hInit) fun h => h hRoom
  have hName : ascii "chat" ≠ [] := by decide
  rw [hSame, hChat]
  unfold partyOnWords
  dsimp only
  rw [if_neg hName, if_neg (by decide), if_neg (by decide),
    if_neg (by decide), if_neg (by decide), if_neg (by decide),
    if_pos rfl, if_neg hSome, hNode]
  unfold partyEffect partyChat
  rw [if_neg hOpen]
  dsimp only
  rw [hPayload]

/- The host of a new room. -/
def roomHost : Node :=
  (partyCreate (fun _ => 0) none (partyInit Node.boot)).node

/- `party chat hi there` -/
def chatArgs : CString :=
  ⟨ascii "chat hi there", by decide⟩

/- The host says `hi`. -/
theorem cmdParty_words_chat :
    (cmdParty (fun _ => 0) [] (fun _ => zeros) chatArgs.chars
        roomHost).frame =
      (sendPartyMsg (fun _ => 0) roomHost msgChat
        (ascii "hi" ++ [0])).1 := by
  have hSub : argWord chatArgs.chars 0 = ascii "chat" := by
    decide
  have hWord : argWord chatArgs.chars 1 = ascii "hi" := by
    decide
  have hSaid :=
    (cmdParty_words (fun _ => 0) [] (fun _ => zeros) chatArgs
      roomHost).2 hSub (by rw [hWord]; decide) rfl rfl
  rw [hWord] at hSaid
  exact hSaid

end Shell

end AsmOS
