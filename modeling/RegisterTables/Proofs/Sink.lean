import RegisterTables.Report.Sink
import Mathlib.Data.List.Basic
import Mathlib.Data.String.Basic

/-!
# A sink stops exactly where it is full

What a sink takes of a text does not depend on how the text is cut. A single write takes as many of
the bytes as there is room for (`Sink.outcome_offer`), so bytes that are written to their end are
taken as far as there is room (`Sink.outcome_writeBytes`), and texts that are written one after the
other are taken as far as there is room for all of them together (`Sink.outcome_writeAll`). The last
step needs that filling a sink twice is filling it once with both (`Sink.fill_append`), and that a
sink into which something did not fit takes nothing of what follows.

A report is written in many pieces, some of them empty. `Report.isWrittenUpTo_writeTo` says what
comes of it under a limit, for these pieces and for all others with the same text.
-/

namespace RegisterTables

/-! ### Runs -/

/-- What a computation comes to on a sink, and the sink that it leaves. -/
def WriteM.outcome {α : Type} (x : WriteM α) (s : Sink) : Except Sink.Fault α × Sink :=
  x.run.run s

namespace WriteM

variable {α β : Type} {x : WriteM α} {f : α → WriteM β} {s s' : Sink}

theorem outcome_get : (get : WriteM Sink).outcome s = (.ok s, s) := rfl

theorem outcome_bind_of_ok {a : α} (h : x.outcome s = (.ok a, s')) :
    (x >>= f).outcome s = (f a).outcome s' := by
  unfold outcome at *
  rw [ExceptT.run_bind, StateT.run_bind, h]
  rfl

theorem outcome_bind_of_error {e : Sink.Fault} (h : x.outcome s = (.error e, s')) :
    (x >>= f).outcome s = (.error e, s') := by
  unfold outcome at *
  rw [ExceptT.run_bind, StateT.run_bind, h]
  rfl

end WriteM

namespace Sink

variable {s : Sink} {a b : ByteArray}

/-! ### Room -/

theorem room_le (s : Sink) (n : ℕ) : s.room n ≤ n := by
  unfold room
  split
  · exact Nat.le_refl n
  · exact Nat.min_le_left n _

@[simp] theorem room_zero (s : Sink) : s.room 0 = 0 :=
  Nat.le_zero.1 (s.room_le 0)

/-- Where some bytes find no room, more of them find none either. -/
theorem room_add_of_lt {m : ℕ} (h : s.room m < m) (n : ℕ) : s.room (m + n) = s.room m := by
  unfold room at *
  cases hs : s.limit with
  | none =>
    rw [hs] at h
    exact absurd h (Nat.lt_irrefl m)
  | some limit =>
    rw [hs] at h
    dsimp only at h ⊢
    omega

theorem size_fill (s : Sink) (a : ByteArray) :
    (s.fill a).accepted.size = s.accepted.size + s.room a.size := by
  have hle := s.room_le a.size
  show (s.accepted ++ a.extract 0 (s.room a.size)).size = _
  rw [ByteArray.size_append, ByteArray.size_extract]
  omega

/-- A sink that took some bytes has as much less room. -/
theorem room_fill_add (s : Sink) (a : ByteArray) (n : ℕ) :
    s.room a.size + (s.fill a).room n = s.room (a.size + n) := by
  have hsize := s.size_fill a
  have hlimit : (s.fill a).limit = s.limit := rfl
  unfold room at *
  rw [hlimit]
  cases hs : s.limit with
  | none => rfl
  | some limit =>
    rw [hs] at hsize
    dsimp only at hsize ⊢
    omega

/-- A sink in which not all bytes found room is full. -/
theorem room_fill_of_lt (h : s.room a.size < a.size) (n : ℕ) : (s.fill a).room n = 0 := by
  have hadd := s.room_fill_add a n
  have hmore := room_add_of_lt h n
  omega

/-- A sink has no room for what it left of the bytes. -/
theorem room_fill_sub (s : Sink) (a : ByteArray) : (s.fill a).room (a.size - s.room a.size) = 0 := by
  rcases Nat.lt_or_eq_of_le (s.room_le a.size) with hlt | hall
  · exact room_fill_of_lt hlt _
  · rw [hall, Nat.sub_self, room_zero]

/-! ### Filling -/

theorem fill_of_room_eq_zero (h : s.room a.size = 0) : s.fill a = s := by
  unfold fill
  rw [h, ByteArray.extract_same, ByteArray.append_empty]

/-- Filling a sink twice is filling it once with both. -/
theorem fill_append (s : Sink) (a b : ByteArray) : s.fill (a ++ b) = (s.fill a).fill b := by
  have hroom : s.room (a ++ b).size = s.room a.size + (s.fill a).room b.size := by
    rw [ByteArray.size_append, room_fill_add]
  have hbytes : (a ++ b).extract 0 (s.room (a ++ b).size)
      = a.extract 0 (s.room a.size) ++ b.extract 0 ((s.fill a).room b.size) := by
    rw [hroom, ByteArray.extract_append]
    rcases Nat.lt_or_eq_of_le (s.room_le a.size) with hlt | hall
    · -- Nothing of the second bytes is taken.
      rw [room_fill_of_lt hlt, Nat.add_zero, Nat.zero_sub, Nat.sub_eq_zero_of_le hlt.le]
    · have hmax (n : ℕ) : a.size + n = max (a.size + n) a.size := by omega
      rw [hall, Nat.zero_sub, Nat.add_sub_cancel_left, ByteArray.extract_zero_size, hmax,
        ByteArray.extract_zero_max_size]
  show { s with accepted := s.accepted ++ (a ++ b).extract 0 (s.room (a ++ b).size) } = _
  rw [hbytes, ← ByteArray.append_assoc]
  rfl

/-! ### Writing -/

/-- What it comes to when bytes are written: they are taken as far as there is room for them, which
is a failure unless there is room for all. -/
def taking (s : Sink) (a : ByteArray) : Except Fault Unit × Sink :=
  (if s.room a.size = a.size then .ok () else .error s.fault, s.fill a)

theorem taking_empty (s : Sink) : s.taking ByteArray.empty = (.ok (), s) := by
  have hroom : s.room ByteArray.empty.size = 0 := room_zero s
  unfold taking
  rw [hroom, ByteArray.size_empty, if_pos rfl, fill_of_room_eq_zero hroom]

/-- Where all of the bytes are taken, what follows them is taken by what is left of the sink. -/
theorem taking_append_of_eq (h : s.room a.size = a.size) (b : ByteArray) :
    s.taking (a ++ b) = (s.fill a).taking b := by
  have hroom := s.room_fill_add a b.size
  have hiff : s.room (a.size + b.size) = a.size + b.size ↔ (s.fill a).room b.size = b.size := by
    omega
  unfold taking
  rw [fill_append, ByteArray.size_append, if_congr hiff rfl rfl]
  rfl

/-- Where not all of the bytes are taken, nothing that follows them is. -/
theorem taking_append_of_ne (h : s.room a.size ≠ a.size) (b : ByteArray) :
    s.taking (a ++ b) = s.taking a := by
  have hlt : s.room a.size < a.size := Nat.lt_of_le_of_ne (s.room_le a.size) h
  have hfull : (s.fill a).room b.size = 0 := room_fill_of_lt hlt b.size
  have hroom := s.room_fill_add a b.size
  have hne : s.room (a.size + b.size) ≠ a.size + b.size := by omega
  unfold taking
  rw [fill_append, fill_of_room_eq_zero hfull, ByteArray.size_append, if_neg hne, if_neg h]

/-- A single write takes what there is room for. -/
theorem outcome_offer (h : 0 < s.room a.size) :
    (offer a).outcome s = (.ok ⟨s.room a.size, h⟩, s.fill a) := by
  unfold offer
  rw [WriteM.outcome_bind_of_ok WriteM.outcome_get, dif_pos h]
  rfl

/-- A single write fails where there is no room. -/
theorem outcome_offer_of_full (h : s.room a.size = 0) :
    (offer a).outcome s = (.error s.fault, s) := by
  unfold offer
  rw [WriteM.outcome_bind_of_ok WriteM.outcome_get, dif_neg (by omega)]
  rfl

/-- Writing bytes, one single write after the other, takes what there is room for. -/
theorem outcome_writeBytes (s : Sink) (a : ByteArray) : (writeBytes a).outcome s = s.taking a := by
  fun_induction writeBytes a generalizing s with
  | case1 a h =>
    obtain rfl := ByteArray.size_eq_zero_iff.1 h
    rw [taking_empty]
    rfl
  | case2 a h ih =>
    rcases Nat.eq_zero_or_pos (s.room a.size) with hfull | hroom
    · -- The sink is full already.
      rw [WriteM.outcome_bind_of_error (outcome_offer_of_full hfull), taking, hfull,
        if_neg (Ne.symm h), fill_of_room_eq_zero hfull]
    · -- What is left is offered to a sink that has no room for it.
      have hle := s.room_le a.size
      have hsize : (a.extract (s.room a.size) a.size).size = a.size - s.room a.size := by
        rw [ByteArray.size_extract, Nat.min_self]
      have hleft : (s.fill a).room (a.extract (s.room a.size) a.size).size = 0 := by
        rw [hsize, room_fill_sub]
      have hiff : 0 = a.size - s.room a.size ↔ s.room a.size = a.size := by omega
      rw [WriteM.outcome_bind_of_ok (outcome_offer hroom)]
      show (writeBytes (a.extract (s.room a.size) a.size)).outcome (s.fill a) = _
      rw [ih _ hroom, taking, fill_of_room_eq_zero hleft, hleft, hsize, if_congr hiff rfl rfl]
      rfl

/-- Texts that are written one after the other are taken like all of them in one. -/
theorem outcome_writeAll (s : Sink) (texts : List String) :
    (writeAll texts).outcome s = s.taking (String.join texts).toUTF8 := by
  induction texts generalizing s with
  | nil =>
    show _ = s.taking ByteArray.empty
    rw [taking_empty]
    rfl
  | cons text texts ih =>
    have hwrite : (write text).outcome s = s.taking text.toUTF8 := outcome_writeBytes s text.toUTF8
    have hjoin : (String.join (text :: texts)).toUTF8
        = text.toUTF8 ++ (String.join texts).toUTF8 := by
      simp only [String.toUTF8_eq_toByteArray, String.join_cons, String.toByteArray_append]
    unfold writeAll
    rw [hjoin]
    by_cases hall : s.room text.toUTF8.size = text.toUTF8.size
    · rw [taking, if_pos hall] at hwrite
      rw [WriteM.outcome_bind_of_ok hwrite, ih, taking_append_of_eq hall]
    · rw [taking_append_of_ne hall]
      rw [taking, if_neg hall] at hwrite
      rw [WriteM.outcome_bind_of_error hwrite, taking, if_neg hall]

end Sink

/-! ### Reports -/

/-- What comes of writing a text into an empty sink with that limit and fault, and of flushing it.
-/
structure IsWrittenUpTo (text : String) (limit : ℕ) (fault : Sink.Fault)
    (outcome : Except Sink.Fault Unit × Sink) : Prop where
  /-- The sink takes the first bytes of the text, as many as its limit allows. -/
  accepted : outcome.2.accepted = text.toUTF8.extract 0 (min limit text.toUTF8.size)
  /-- Writing succeeds exactly if the limit allows all bytes. -/
  ok_iff : outcome.1 = .ok () ↔ text.toUTF8.size ≤ limit
  /-- After success the sink was flushed once, when it had taken the last byte. -/
  flushed : outcome.1 = .ok () → outcome.2.flushedAt = [text.toUTF8.size]
  /-- Otherwise the failure is that of the sink, which was never flushed. -/
  failed : outcome.1 ≠ .ok () → outcome.1 = .error fault ∧ outcome.2.flushedAt = []

/-- Pieces that are written and flushed come to the same as the text that they make. -/
theorem outcome_writeAll_flush (s : Sink) (pieces : List String) :
    WriteM.outcome (do Sink.writeAll pieces; Sink.flush) s =
      let a := (String.join pieces).toUTF8
      if s.room a.size = a.size then
        (.ok (), { s.fill a with flushedAt := s.flushedAt ++ [(s.fill a).accepted.size] })
      else (.error s.fault, s.fill a) := by
  have hwritten := s.outcome_writeAll pieces
  dsimp only
  unfold Sink.taking at hwritten
  split_ifs at hwritten ⊢
  · rw [WriteM.outcome_bind_of_ok hwritten]
    rfl
  · rw [WriteM.outcome_bind_of_error hwritten]

/-- An empty sink takes as much of a text as its limit allows. -/
theorem isWrittenUpTo_writeAll (pieces : List String) (limit : ℕ) (fault : Sink.Fault) :
    IsWrittenUpTo (String.join pieces) limit fault
      (WriteM.outcome (do Sink.writeAll pieces; Sink.flush) { limit := some limit, fault }) := by
  have hrun := outcome_writeAll_flush { limit := some limit, fault } pieces
  dsimp only at hrun
  set a := (String.join pieces).toUTF8
  have hroom : Sink.room { limit := some limit, fault } a.size = min limit a.size := by
    show min a.size (limit - 0) = _
    omega
  have haccepted : (Sink.fill { limit := some limit, fault } a).accepted
      = a.extract 0 (min limit a.size) := by
    show ByteArray.empty ++ a.extract 0 (Sink.room { limit := some limit, fault } a.size) = _
    rw [ByteArray.empty_append, hroom]
  have hsize : (Sink.fill { limit := some limit, fault } a).accepted.size = min limit a.size := by
    rw [haccepted, ByteArray.size_extract]
    omega
  rw [hrun, hroom]
  by_cases hall : min limit a.size = a.size
  · rw [if_pos hall]
    constructor
    · exact haccepted
    · exact iff_of_true rfl (show a.size ≤ limit by omega)
    · intro _
      show [] ++ [_] = _
      rw [hsize, hall, List.nil_append]
    · intro hfailed
      exact absurd rfl hfailed
  · rw [if_neg hall]
    have hfailed : Except.error fault ≠ Except.ok () := by
      intro h
      cases h
    constructor
    · exact haccepted
    · exact iff_of_false hfailed (show ¬ a.size ≤ limit by omega)
    · intro hok
      exact absurd hok hfailed
    · intro _
      exact ⟨rfl, rfl⟩

/-- **Writing a report** into a sink with a limit takes as much of its text as the limit allows,
however the text is cut into pieces. If that is not all of the text, and only then, it fails with the
fault of the sink, which is not flushed. -/
theorem Report.isWrittenUpTo_writeTo (r : Report) (limit : ℕ) (fault : Sink.Fault) :
    IsWrittenUpTo r.markdown limit fault (r.writeTo.outcome { limit := some limit, fault }) ∧
    ∀ pieces, String.join pieces = r.markdown →
      WriteM.outcome (do Sink.writeAll pieces; Sink.flush) { limit := some limit, fault }
        = r.writeTo.outcome { limit := some limit, fault } := by
  constructor
  · exact isWrittenUpTo_writeAll r.pieces limit fault
  · intro pieces hpieces
    have hown : r.writeTo.outcome { limit := some limit, fault } = _ :=
      outcome_writeAll_flush { limit := some limit, fault } r.pieces
    rw [hown, outcome_writeAll_flush, hpieces]
    rfl

/-- A limit within the second byte of the title, and a text that is cut elsewhere and has an empty
piece. -/
theorem Report.isWrittenUpTo_writeTo_within :
    let r : Report := ⟨"é", []⟩
    let fault : Sink.Fault := ⟨"no space left"⟩
    let pieces := ["", "# é\n", "", "\n"]
    IsWrittenUpTo r.markdown 3 fault (r.writeTo.outcome { limit := some 3, fault }) ∧
      String.join pieces = r.markdown ∧
      WriteM.outcome (do Sink.writeAll pieces; Sink.flush) { limit := some 3, fault }
        = r.writeTo.outcome { limit := some 3, fault } := by
  intro r fault pieces
  have hpieces : String.join pieces = r.markdown := by decide +revert
  obtain ⟨hwritten, hcut⟩ := r.isWrittenUpTo_writeTo 3 fault
  exact ⟨hwritten, hpieces, hcut pieces hpieces⟩

end RegisterTables
