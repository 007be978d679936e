import UsbDirectFabric.Foundation.Drain
import UsbDirectFabric.Network.Copies

/-!
# What a daemon still has to do

Every transfer in a daemon or on a link is a due, whose rank is the number of its bytes and, for
equal lengths, how far the transfer can still get: forwarding keeps the length and uses up one hop.
A frame that is written in pieces becomes several shorter transfers, which may even be frames with
all their hops left, so the length comes first.

Each step of a daemon but a call of `send`, a heartbeat of the gadget and a write that accepts
nothing pays one due.
-/

namespace UsbDirectFabric

open Wire Daemon Tokens Relation

namespace Network

/-! ## Ranks -/

abbrev Rank := ℕ × ℕ

abbrev Rank.Less : Rank → Rank → Prop :=
  Prod.Lex (· < ·) (· < ·)

theorem Rank.less_of_level {length first second : ℕ} (hlevel : first < second) :
    Rank.Less (length, first) (length, second) :=
  .right length hlevel

theorem Rank.less_of_le {first second : Rank} (hlength : first.1 ≤ second.1)
    (hlevel : first.2 < second.2) : Rank.Less first second := by
  obtain ⟨length, level⟩ := first
  obtain ⟨other, limit⟩ := second
  rcases Nat.lt_or_eq_of_le hlength with hless | hequal
  · exact .left _ _ hless
  · simp only at hequal
    subst hequal
    exact .right _ hlevel

/-- How often a frame can still be forwarded. -/
def hopsLeft (frame : Frame) : ℕ := hopLimit - frame.hop.toNat

def frameLength (frame : Frame) : ℕ := hdrSize + pad16 frame.payload.length + crcSize

variable (crc32 : Bytes → UInt32)

/-- How often the frame in a transfer can still be forwarded. -/
def hopsIn (data : Bytes) : ℕ :=
  match unpack crc32 data with
  | .ok frame => hopsLeft frame
  | .error _ => 0

/-- The rank of a transfer; `phase` tells apart the places between two forwards. -/
def dataRank (phase : ℕ) (data : Bytes) : Rank := (data.length, 8 * hopsIn crc32 data + phase)

def frameRank (phase : ℕ) (frame : Frame) : Rank := (frameLength frame, 8 * hopsLeft frame + phase)

/-- The rank of bytes that are still to be written, whatever is in them. -/
def bytesRank (length : ℕ) : Rank := (length, 8 * hopLimit + 8)

/-- The rank of a last action that concerns no frame. -/
def trailing : Rank := (0, 0)

theorem hopsIn_le (data : Bytes) : hopsIn crc32 data ≤ hopLimit := by
  unfold hopsIn
  split
  · exact Nat.sub_le _ _
  · exact Nat.zero_le _

variable {crc32}

theorem hopsIn_of_unpack {data : Bytes} {frame : Frame} (hunpack : unpack crc32 data = .ok frame) :
    hopsIn crc32 data = hopsLeft frame := by
  simp only [hopsIn, hunpack]

theorem frameLength_le {data : Bytes} {frame : Frame} (hunpack : unpack crc32 data = .ok frame) :
    frameLength frame ≤ data.length := by
  have hplen := (length_payload_of_unpack crc32 hunpack).1
  rw [frameLength, hplen]
  exact ((unpack_eq_ok_iff crc32).mp hunpack).2.2.1

/-- Reading a transfer may cut it, which leaves it no more hops than before. -/
theorem hopsIn_take_le (data : Bytes) (size : ℕ) :
    hopsIn crc32 (data.take size) ≤ hopsIn crc32 data := by
  cases hunpack : unpack crc32 (data.take size) with
  | ok frame =>
      rw [hopsIn_of_unpack hunpack, hopsIn_of_unpack (unpack_of_take crc32 hunpack)]
  | error error =>
      simp only [hopsIn, hunpack]
      exact Nat.zero_le _

theorem trailing_less {rank : Rank} (hlevel : 0 < rank.2) : Rank.Less trailing rank :=
  Rank.less_of_le (Nat.zero_le _) hlevel

theorem dataRank_less {earlier later : ℕ} (hphase : later < earlier) (data : Bytes) :
    Rank.Less (dataRank crc32 later data) (dataRank crc32 earlier data) :=
  .right _ (Nat.add_lt_add_left hphase _)

theorem dataRank_take_less {earlier later : ℕ} (hphase : later < earlier) (data : Bytes)
    (size : ℕ) :
    Rank.Less (dataRank crc32 later (data.take size)) (dataRank crc32 earlier data) := by
  apply Rank.less_of_le
  · simp only [dataRank, List.length_take]
    exact min_le_right _ _
  · have hhops : hopsIn crc32 (data.take size) ≤ hopsIn crc32 data := hopsIn_take_le data size
    simp only [dataRank]
    omega

theorem frameRank_less_dataRank {earlier later : ℕ} (hphase : later < earlier) {data : Bytes}
    {frame : Frame} (hunpack : unpack crc32 data = .ok frame) :
    Rank.Less (frameRank later frame) (dataRank crc32 earlier data) := by
  apply Rank.less_of_le (frameLength_le hunpack)
  simp only [frameRank, dataRank, hopsIn_of_unpack hunpack]
  omega

/-- Bytes of which some are gone are of smaller rank. -/
theorem dataRank_less_of_length {earlier later : ℕ} {piece data : Bytes}
    (hlength : piece.length < data.length) :
    Rank.Less (dataRank crc32 later piece) (dataRank crc32 earlier data) :=
  .left _ _ hlength

/-- All that is written of the remaining bytes is of smaller rank. -/
theorem dataRank_less_bytesRank {phase length : ℕ} {piece : Bytes} (hphase : phase < 8)
    (hlength : piece.length ≤ length) :
    Rank.Less (dataRank crc32 phase piece) (bytesRank length) := by
  have hhops := hopsIn_le crc32 piece
  apply Rank.less_of_le hlength
  simp only [dataRank, bytesRank]
  omega

/-- Forwarding uses up one hop. -/
theorem hopsIn_of_repack {frame : Frame} {seq : ℕ} {data : Bytes}
    (hrepack : repack crc32 frame seq = .ok data) : hopsIn crc32 data = hopsLeft frame - 1 := by
  obtain ⟨packed, -, -, -, hpayload, -, hhop, hlength, rfl⟩ := pack_eq_ok crc32 hrepack
  have hnext : packed.hop.toNat = frame.hop.toNat + 1 := by exact_mod_cast hhop.symm
  rw [hopsIn_of_unpack (unpack_encode crc32 packed (hpayload ▸ hlength)), hopsLeft, hopsLeft, hnext,
    Nat.sub_sub]

/-- A forwarded frame is as long as before and has one hop less. -/
theorem dataRank_of_repack {frame : Frame} {seq phase : ℕ} {data : Bytes}
    (hrepack : repack crc32 frame seq = .ok data) :
    dataRank crc32 phase data = (frameLength frame, 8 * (hopsLeft frame - 1) + phase) := by
  rw [dataRank, hopsIn_of_repack hrepack, length_of_pack crc32 hrepack, frameLength]

/-- A frame with a number: forwarding it must be of smaller rank even where the hop limit has been
passed. -/
def numberedRank (frame : Frame) : Rank := (frameLength frame, max (8 * hopsLeft frame + 1) 8)

theorem numberedRank_less {frame : Frame} (hlimit : frame.hop.toNat < hopLimit) :
    Rank.Less (numberedRank frame) (frameRank 2 frame) := by
  have hleft : 0 < hopsLeft frame := Nat.sub_pos_of_lt hlimit
  apply Rank.less_of_level
  omega

theorem dataRank_less_numberedRank {frame : Frame} {seq : ℕ} {data : Bytes}
    (hrepack : repack crc32 frame seq = .ok data) :
    Rank.Less (dataRank crc32 7 data) (numberedRank frame) := by
  rw [dataRank_of_repack hrepack]
  apply Rank.less_of_level
  omega

abbrev linkDues (crc32 : Bytes → UInt32) (items : List (Tag × Bytes)) : Multiset Rank :=
  places (fun item ↦ dataRank crc32 5 item.2) items

abbrev queueDues (crc32 : Bytes → UInt32) (items : List (Tag × Bytes)) : Multiset Rank :=
  places (fun item ↦ dataRank crc32 7 item.2) items

/-- A daemon's step pays one due out of the daemon's and its link's. -/
abbrev Pays (crc32 : Bytes → UInt32) (number : ℕ) (effect : Effect) (dues next : Multiset Rank) :
    Prop :=
  CutExpand Rank.Less (next + linkDues crc32 (written number effect)) dues

end Network

open Network

namespace Daemon

/-! ## The node -/

namespace UDFNode

variable (crc32 : Bytes → UInt32)

def RxThread.dues : RxThread → Multiset Rank
  | .received _ data => {dataRank crc32 4 data}
  | .unpacked _ frame => {frameRank 2 frame}
  | .numbered _ frame _ => {numberedRank frame}
  | .queued => {trailing}
  | .waiting | .dead => 0

def TxThread.dues : TxThread → Multiset Rank
  | .holding _ raw => {dataRank crc32 6 raw}
  | .waiting => 0

def HbThread.dues : HbThread → Multiset Rank
  | .sleeping => {(0, 1)}
  | .numbered _ => {trailing}
  | .dead => 0

def Sender.rank : Sender → Rank
  | .numbered _ payload _ => bytesRank (hdrSize + pad16 payload.length + crcSize)
  | .queued _ => trailing

def dues (node : UDFNode) : Multiset Rank :=
  queueDues crc32 node.txQueue + node.hostTx.dues crc32 +
    (node.gadgetRx.dues crc32 + node.hostRx.dues crc32) +
    places (fun _ ↦ trailing) node.rxQueue + places Sender.rank node.senders + node.heartbeat.dues

/-- Moving a receive loop exchanges the dues of its position. -/
theorem dues_withRx (node : UDFNode) (thread : RxThread) (loop : RxLoop) :
    (node.withRx thread loop).dues crc32 + (node.rx loop).dues crc32 =
      node.dues crc32 + thread.dues crc32 := by
  cases loop <;> simp only [dues, withRx, rx] <;> abel

variable {crc32} {node next : UDFNode} {effect : Effect} {number : ℕ}

theorem PlainMove.pays {action : Action} (hmove : PlainMove node action next effect) :
    Pays crc32 number effect (node.dues crc32) (next.dues crc32) := by
  cases hmove with
  | @recv item rest hwaits =>
      apply Drain.pay trailing
      simp only [dues, hwaits, written, places_cons, places_nil]
      abel
  | @txGet tag raw rest hstands hwaits =>
      apply Drain.replace (dataRank_less (show 6 < 7 by decide) raw)
      simp only [dues, hstands, hwaits, TxThread.dues, written, places_cons, places_nil]
      abel
  | @txWhole tag raw hstands =>
      apply Drain.replace (dataRank_less (show 5 < 6 by decide) raw)
      simp only [dues, hstands, TxThread.dues, written, places_cons, places_nil]
      abel
  | @txShort tag raw accepted hstands _ hshort =>
      have hlength : (raw.take accepted).length < raw.length := by
        rw [List.length_take]
        omega
      apply Drain.replace (dataRank_less_of_length hlength)
      simp only [dues, hstands, TxThread.dues, written, places_cons, places_nil]
      abel
  | @txFail tag raw hstands =>
      apply Drain.pay (dataRank crc32 6 raw)
      simp only [dues, hstands, TxThread.dues, written, places_nil]
      abel
  | @txSkip tag raw hstands =>
      apply Drain.pay (dataRank crc32 6 raw)
      simp only [dues, hstands, TxThread.dues, written, places_nil]
      abel
  | hbNumber hstands =>
      apply Drain.replace (trailing_less (show 0 < (0, 1).2 by decide))
      simp only [dues, hstands, HbThread.dues, written, places_nil]
      abel
  | hbDie hstands =>
      apply Drain.pay trailing
      simp only [dues, hstands, HbThread.dues, written, places_nil]
      abel

theorem SenderMove.pays {index : ℕ} (hmove : SenderMove crc32 number index node next effect) :
    Pays crc32 number effect (node.dues crc32) (next.dues crc32) := by
  cases hmove with
  | @put dst payload seq raw hstands hpack =>
      have hrank : Rank.Less (dataRank crc32 7 raw)
          (bytesRank (hdrSize + pad16 payload.length + crcSize)) :=
        dataRank_less_bytesRank (by decide) (le_of_eq (length_of_pack crc32 hpack))
      apply Drain.split hrank (trailing_less (by simp [bytesRank]))
      simp only [dues, written, places_append, places_cons, places_nil,
        places_eraseIdx Sender.rank hstands, Sender.rank]
      abel
  | @fail dst payload seq error hstands =>
      apply Drain.pay (Sender.rank (.numbered dst payload seq))
      simp only [dues, written, places_nil, places_eraseIdx Sender.rank hstands]
      abel
  | count hstands =>
      apply Drain.pay trailing
      simp only [dues, written, places_nil, places_eraseIdx Sender.rank hstands, Sender.rank]
      abel

/-- The dues of a node apart from the one its receive loop has let go. -/
theorem dues_eq_withRx {loop : RxLoop} {source : RxThread} (thread : RxThread) {rank : Rank}
    (hstands : node.rx loop = source) (hsource : source.dues crc32 = {rank})
    (htarget : thread.dues crc32 = 0) :
    node.dues crc32 = (node.withRx thread loop).dues crc32 + {rank} := by
  have hexchange := dues_withRx crc32 node thread loop
  rw [hstands, hsource, htarget, add_zero] at hexchange
  exact hexchange.symm

/-- A step of a receive loop that only moves the loop on. -/
theorem pays_withRx {loop : RxLoop} {source thread : RxThread} {rank other : Rank}
    (hstands : node.rx loop = source) (hsource : source.dues crc32 = {rank})
    (htarget : thread.dues crc32 = {other}) (hless : Rank.Less other rank) :
    Pays crc32 number .silent (node.dues crc32) ((node.withRx thread loop).dues crc32) := by
  apply Drain.replace hless
  have hexchange := dues_withRx crc32 node thread loop
  rw [hstands, hsource, htarget] at hexchange
  simpa only [written, places_nil, add_zero] using hexchange

/-- A step of a receive loop that gives the frame up. -/
theorem pays_letGo {loop : RxLoop} {source thread : RxThread} {rank : Rank} {tag : Tag}
    {fate : Fate}
    (hstands : node.rx loop = source) (hsource : source.dues crc32 = {rank})
    (htarget : thread.dues crc32 = 0) :
    Pays crc32 number (.ended fate tag) (node.dues crc32)
      ((node.withRx thread loop).dues crc32) := by
  apply Drain.pay rank
  rw [dues_eq_withRx thread hstands hsource htarget]
  simp only [written, places_nil, add_zero]

theorem LoopMove.pays {loop : RxLoop} (hmove : LoopMove crc32 node loop next effect) :
    Pays crc32 number effect (node.dues crc32) (next.dues crc32) := by
  cases hmove with
  | reject hstands => exact pays_letGo hstands rfl rfl
  | @count tag data frame hstands hunpack =>
      exact pays_withRx hstands rfl rfl (frameRank_less_dataRank (by decide) hunpack)
  | @deliver tag frame hstands =>
      apply Drain.replace (trailing_less (show 0 < (frameRank 2 frame).2 by simp [frameRank]))
      rw [dues_eq_withRx .waiting hstands rfl rfl]
      simp only [dues, written, places_append, places_cons, places_nil]
      abel
  | drop hstands => exact pays_letGo hstands rfl rfl
  | number hstands _ hlimit => exact pays_withRx hstands rfl rfl (numberedRank_less hlimit)
  | @put tag frame seq raw hstands hrepack =>
      have hlevel : 0 < (numberedRank frame).2 := lt_of_lt_of_le (by decide) (le_max_right _ 8)
      apply Drain.split (dataRank_less_numberedRank hrepack) (trailing_less hlevel)
      have hexchange := dues_withRx crc32 node .queued loop
      rw [hstands] at hexchange
      calc
        _ = (node.withRx .queued loop).dues crc32 + RxThread.dues crc32 (.numbered tag frame seq) +
            {dataRank crc32 7 raw} := by
          simp only [dues, written, places_append, places_cons, places_nil, RxThread.dues]
          abel
        _ = node.dues crc32 + {trailing} + {dataRank crc32 7 raw} :=
          congrArg (· + {dataRank crc32 7 raw}) hexchange
        _ = _ := by abel
  | fail hstands => exact pays_letGo hstands rfl rfl
  | die hstands => exact pays_letGo hstands rfl rfl
  | finish hstands =>
      apply Drain.pay trailing
      rw [dues_eq_withRx .waiting hstands rfl rfl]
      simp only [dues, written, places_nil, add_zero]

/-- Any step but a new call of `send`. -/
def Proceeds : Action → Prop
  | .send _ _ => False
  | _ => True

theorem step_pays {action : Action} (hproceeds : Proceeds action)
    (hstep : node.step crc32 number action = some (next, effect)) :
    Pays crc32 number effect (node.dues crc32) (next.dues crc32) := by
  cases step_moves crc32 hstep with
  | send => exact hproceeds.elim
  | sender hmove => exact hmove.pays
  | loop hmove => exact hmove.pays
  | plain hmove => exact hmove.pays

/-- A read pays the due of the transfer. -/
theorem read_pays {loop : RxLoop} {tag : Tag} {data : Bytes}
    (hread : node.read loop tag data = some (next, effect)) :
    Pays crc32 number effect (node.dues crc32 + {dataRank crc32 5 data}) (next.dues crc32) := by
  obtain ⟨-, hwaiting, ⟨-, rfl, rfl⟩ | ⟨-, rfl, rfl⟩⟩ := read_cases hread
  · apply Drain.pay (dataRank crc32 5 data)
    simp only [written, places_nil, add_zero]
  · apply Drain.replace (dataRank_take_less (show 4 < 5 by decide) data readSize)
    have hexchange := dues_withRx crc32 node (.received tag (data.take readSize)) loop
    rw [hwaiting, show RxThread.dues crc32 .waiting = 0 from rfl, add_zero] at hexchange
    rw [hexchange]
    simp only [written, places_nil, RxThread.dues]
    abel

end UDFNode

/-! ## The gadget -/

namespace GadgetDaemon

variable (crc32 : Bytes → UInt32)

def RxThread.dues : RxThread → Multiset Rank
  | .received _ data => {dataRank crc32 4 data}
  | .sized _ data => {dataRank crc32 3 data}
  | .accounted _ frame => {frameRank 2 frame}
  | .numbered _ frame _ => {numberedRank frame}
  | .waiting | .dead => 0

/-- Once some bytes of a frame are written, only the number of the others counts. -/
def writingRank (data : Bytes) (written : ℕ) : Rank :=
  if written = 0 then dataRank crc32 6 data else bytesRank (data.length - written)

def TxThread.dues : TxThread → Multiset Rank
  | .writing _ data written => {writingRank crc32 data written}
  | .sent _ => {trailing}
  | .waiting => 0

def Sender.rank (sender : Sender) : Rank :=
  bytesRank (hdrSize + pad16 sender.payload.length + crcSize)

def dues (daemon : GadgetDaemon) : Multiset Rank :=
  queueDues crc32 daemon.txQueue + daemon.tx.dues crc32 + daemon.rx.dues crc32 +
    places Sender.rank daemon.senders

/-- Any step but a new call of `send`, one of the heartbeat, and a write that accepts nothing. -/
def Proceeds : Action → Prop
  | .send _ _ | .hbStep => False
  | .txWrite accepted => accepted ≠ 0
  | _ => True

variable {crc32} {daemon next : GadgetDaemon} {effect : Effect} {number : ℕ}

theorem writingRank_zero (data : Bytes) : writingRank crc32 data 0 = dataRank crc32 6 data :=
  if_pos rfl

/-- A piece of a frame has a smaller rank than what was left to write. -/
theorem piece_less {data : Bytes} {done accepted : ℕ}
    (hroom : done + accepted ≤ data.length) (hpart : ¬(done = 0 ∧ accepted = data.length)) :
    Rank.Less (dataRank crc32 5 ((data.drop done).take accepted))
      (writingRank crc32 data done) := by
  have hlength : ((data.drop done).take accepted).length = accepted := by
    rw [List.length_take, List.length_drop]
    omega
  unfold writingRank
  split
  · apply dataRank_less_of_length
    omega
  · apply dataRank_less_bytesRank (by decide)
    omega

/-- What is left to write after a piece has a smaller rank. -/
theorem writingRank_less {data : Bytes} {done accepted : ℕ} (haccepted : accepted ≠ 0)
    (hroom : done + accepted ≤ data.length) :
    Rank.Less (writingRank crc32 data (done + accepted)) (writingRank crc32 data done) := by
  have hpositive : done + accepted ≠ 0 := by omega
  rw [writingRank, if_neg hpositive, writingRank]
  split
  · exact .left _ _ (by omega)
  · exact .left _ _ (by omega)

theorem step_pays {action : Action} (hproceeds : Proceeds action)
    (hstep : daemon.step crc32 number action = some (next, effect)) :
    Pays crc32 number effect (daemon.dues crc32) (next.dues crc32) := by
  cases step_moves hstep with
  | @size tag data hstands =>
      apply Drain.replace (dataRank_less (show 3 < 4 by decide) data)
      simp only [dues, hstands, RxThread.dues, written, places_nil]
      abel
  | @account tag data frame hstands hunpack =>
      apply Drain.replace (frameRank_less_dataRank (show 2 < 3 by decide) hunpack)
      simp only [account_eq, dues, hstands, RxThread.dues, written, places_nil]
      abel
  | @reject tag data message hstands =>
      apply Drain.pay (dataRank crc32 3 data)
      simp only [dues, hstands, RxThread.dues, written, places_nil]
      abel
  | @deliver tag frame hstands =>
      apply Drain.pay (frameRank 2 frame)
      simp only [dues, hstands, RxThread.dues, written, places_nil]
      abel
  | @number tag frame hstands _ hlimit =>
      apply Drain.replace (numberedRank_less hlimit)
      simp only [dues, hstands, RxThread.dues, written, places_nil]
      abel
  | @drop tag frame hstands =>
      apply Drain.pay (frameRank 2 frame)
      simp only [dues, hstands, RxThread.dues, written, places_nil]
      abel
  | @forward tag frame seq data hstands hrepack =>
      apply Drain.replace (dataRank_less_numberedRank hrepack)
      simp only [dues, hstands, RxThread.dues, written, places_append, places_cons, places_nil]
      abel
  | @rxDie tag frame seq error hstands =>
      apply Drain.pay (numberedRank frame)
      simp only [dues, hstands, RxThread.dues, written, places_nil]
      abel
  | @txGet tag data rest hstands hwaits =>
      apply Drain.replace (dataRank_less (show 6 < 7 by decide) data)
      simp only [dues, hstands, hwaits, TxThread.dues, writingRank_zero, written, places_cons,
        places_nil]
      abel
  | @txWhole tag data hstands =>
      apply Drain.split (dataRank_less (show 5 < 6 by decide) data)
        (trailing_less (show 0 < (dataRank crc32 6 data).2 by simp [dataRank]))
      simp only [dues, hstands, TxThread.dues, writingRank_zero, written, places_cons, places_nil]
      abel
  | @txPiece tag data done accepted hstands hroom hpart =>
      apply Drain.split (piece_less hroom.2 hpart) (writingRank_less hproceeds hroom.2)
      simp only [dues, hstands, TxThread.dues, written, places_cons, places_nil]
      abel
  | @txFail tag data done hstands =>
      apply Drain.pay (writingRank crc32 data done)
      simp only [dues, hstands, TxThread.dues, written, places_nil]
      abel
  | txFinish hstands =>
      apply Drain.pay trailing
      simp only [dues, hstands, TxThread.dues, written, places_nil]
      abel
  | @txFinishPieces tag data hstands =>
      apply Drain.pay (writingRank crc32 data data.length)
      simp only [dues, hstands, TxThread.dues, written, places_nil]
      abel
  | hbNumber => exact hproceeds.elim
  | hbPut => exact hproceeds.elim
  | hbDie => exact hproceeds.elim
  | send => exact hproceeds.elim
  | @sendPut index sender data hstands hpack =>
      have hrank : Rank.Less (dataRank crc32 7 data) sender.rank :=
        dataRank_less_bytesRank (by decide) (le_of_eq (length_of_pack crc32 hpack))
      apply Drain.replace hrank
      simp only [dues, written, places_append, places_cons, places_nil,
        places_eraseIdx Sender.rank hstands]
      abel
  | @sendRaise index sender error hstands =>
      apply Drain.pay sender.rank
      simp only [dues, written, places_nil, places_eraseIdx Sender.rank hstands]
      abel

/-- A read pays the due of the transfer. -/
theorem read_pays {tag : Tag} {data : Bytes}
    (hread : daemon.read tag data = some (next, effect)) :
    Pays crc32 number effect (daemon.dues crc32 + {dataRank crc32 5 data}) (next.dues crc32) := by
  obtain ⟨hwaiting, ⟨-, rfl, rfl⟩ | ⟨-, rfl, rfl⟩⟩ := read_cases hread
  · apply Drain.pay (dataRank crc32 5 data)
    simp only [written, places_nil, add_zero]
  · apply Drain.replace (dataRank_take_less (show 4 < 5 by decide) data readSize)
    simp only [dues, hwaiting, RxThread.dues, written, places_nil]
    abel

end GadgetDaemon

end Daemon

end UsbDirectFabric
