import Mathlib.Algebra.Group.Nat.Defs
import Mathlib.Data.List.Basic
import Rulebook.Snapshot.Format

/-!
# What is written is read back

Two laws are kept by every way of putting formats together. A value that a format
*restores* is read from what is written of it, whatever follows; this may need
the value to be small enough for its place. A *frugal* reader takes the front of
the bytes and comes to the same whatever stands behind it; this holds of all
that it is given, written or not.

Together they say where a beginning of what was written ends too soon. If it
could be read, then so could the whole, with bytes left over.
-/

namespace Rulebook

namespace Format

variable {α β : Type}

/-! ## The two laws -/

/-- The value is read from what is written of it, whatever follows. -/
def Restores (format : Format α) (a : α) : Prop :=
  ∀ rest, format.read (format.write a ++ rest) = some (a, rest)

/-- The reader takes a front of the bytes and does not look at what follows it. -/
structure Frugal (read : List UInt8 → Option (α × List UInt8)) : Prop where
  take : ∀ {bytes a rest}, read bytes = some (a, rest) →
    ∃ front, bytes = front ++ rest ∧ ∀ more, read (front ++ more) = some (a, more)

theorem Restores.decode_append {format : Format α} {a : α} (h : format.Restores a)
    (rest : List UInt8) : format.decode (format.write a ++ rest) = some a := by
  rw [decode, h rest, Option.map_some]

/-- **Nothing is read from a beginning** of what was written of a value. -/
theorem Restores.decode_front {format : Format α} {a : α} (h : format.Restores a)
    (hf : Frugal format.read) {front rest : List UInt8} (hw : format.write a = front ++ rest)
    (hr : rest ≠ []) : format.decode front = none := by
  rw [decode, Option.map_eq_none_iff, Option.eq_none_iff_forall_ne_some]
  intro ⟨b, left⟩ hread
  obtain ⟨used, hused, hmore⟩ := hf.take hread
  -- the whole is then read as `b` too, with `rest` left over
  have hwhole := h []
  rw [hw, hused, List.append_nil, List.append_assoc, hmore] at hwhole
  obtain ⟨_, hnil⟩ := Prod.mk.inj (Option.some.inj hwhole)
  exact hr (List.append_eq_nil_iff.mp hnil).2

/-! ## Readers in sequence -/

namespace Frugal

theorem done (a : α) : Frugal fun bytes => some (a, bytes) where
  take h := by
    cases h
    exact ⟨[], rfl, fun _ => rfl⟩

theorem fail : Frugal fun _ => (none : Option (α × List UInt8)) where
  take h := absurd h (by simp)

theorem bind {first : List UInt8 → Option (α × List UInt8)}
    {next : α → List UInt8 → Option (β × List UInt8)} (h : Frugal first)
    (hn : ∀ a, Frugal (next a)) :
    Frugal fun bytes => (first bytes).bind fun read => next read.1 read.2 where
  take hb := by
    obtain ⟨⟨a, mid⟩, ha, hnext⟩ := Option.bind_eq_some_iff.mp hb
    obtain ⟨front, rfl, hfirst⟩ := h.take ha
    obtain ⟨back, rfl, hsecond⟩ := (hn a).take hnext
    refine ⟨front ++ back, by rw [List.append_assoc], fun more => ?_⟩
    simp only [List.append_assoc, hfirst, Option.bind_some, hsecond]

end Frugal

/-! ## Numbers and bytes -/

theorem restores_nat {width n : Nat} (h : n < 256 ^ width) : (nat width).Restores n := by
  intro rest
  show readBytes width (lowBytes width n ++ rest) = some (n, rest)
  induction width generalizing n with
  | zero =>
      obtain rfl : n = 0 := by simpa using h
      rfl
  | succ width ih =>
      have hhigh : n / 256 < 256 ^ width := by
        rw [Nat.div_lt_iff_lt_mul (by decide), ← Nat.pow_succ]
        exact h
      have hlow : (UInt8.ofNat (n % 256)).toNat = n % 256 :=
        UInt8.toNat_ofNat_of_lt' (Nat.mod_lt n (by decide))
      rw [lowBytes, List.cons_append, readBytes, ih hhigh]
      simp only [Option.bind_eq_bind, Option.bind_some, Option.pure_def, hlow, Nat.mod_add_div]

theorem frugal_nat (width : Nat) : Frugal (nat width).read := by
  show Frugal (readBytes width)
  induction width with
  | zero => exact .done 0
  | succ width ih =>
      refine ⟨fun {bytes n rest} h => ?_⟩
      cases bytes with
      | nil => exact absurd h (by simp [readBytes])
      | cons byte bytes =>
          obtain ⟨front, hfront, hmore⟩ :=
            (ih.bind fun high => .done (byte.toNat + 256 * high)).take h
          exact ⟨byte :: front, by rw [hfront, List.cons_append], hmore⟩

theorem restores_byte (b : UInt8) : byte.Restores b := fun _ => rfl

theorem frugal_byte : Frugal byte.read where
  take {bytes b rest} h := by
    cases bytes with
    | nil => exact absurd h (by simp [byte])
    | cons first others =>
        cases h
        exact ⟨[b], rfl, fun _ => rfl⟩

theorem restores_nothing : nothing.Restores () := fun _ => rfl

theorem frugal_nothing : Frugal nothing.read := .done ()

/-! ## Values that stand for others -/

section Convert

variable {format : Format α} {back : β → α}

theorem restores_convert {into : α → Option β} {b : β} (h : format.Restores (back b))
    (hb : into (back b) = some b) : (format.convert into back).Restores b := by
  intro rest
  simp only [convert, h rest, Option.bind_eq_bind, Option.bind_some, hb, Option.pure_def]

theorem frugal_convert (into : α → Option β) (h : Frugal format.read) :
    Frugal (format.convert into back).read := by
  have hinto : ∀ a, Frugal fun rest => (into a).bind fun b => some (b, rest) := by
    intro a
    cases into a with
    | none => exact .fail
    | some b => exact .done b
  exact h.bind hinto

theorem restores_map {into : α → β} {b : β} (h : format.Restores (back b))
    (hb : into (back b) = b) : (format.map into back).Restores b :=
  restores_convert h (congrArg some hb)

theorem frugal_map (into : α → β) (h : Frugal format.read) :
    Frugal (format.map into back).read := frugal_convert _ h

end Convert

/-! ## Values after one another -/

section Sequence

variable {format : Format α} {second : Format β}

theorem restores_pair {ab : α × β} (ha : format.Restores ab.1) (hb : second.Restores ab.2) :
    (format.pair second).Restores ab := by
  intro rest
  simp only [pair, List.append_assoc, ha _, hb _, Option.bind_eq_bind, Option.bind_some,
    Option.pure_def]

theorem frugal_pair (h : Frugal format.read) (hs : Frugal second.read) :
    Frugal (format.pair second).read :=
  h.bind fun a => hs.bind fun b => .done (a, b)

theorem readMany_append {values : List α} (h : ∀ a ∈ values, format.Restores a)
    (rest : List UInt8) :
    readMany format.read values.length (values.flatMap format.write ++ rest)
      = some (values, rest) := by
  induction values with
  | nil => rfl
  | cons a values ih =>
      rw [List.flatMap_cons, List.append_assoc, List.length_cons, readMany,
        h a List.mem_cons_self]
      simp only [Option.bind_eq_bind, Option.bind_some, Option.pure_def,
        ih fun b hb => h b (List.mem_cons_of_mem _ hb)]

theorem frugal_readMany (h : Frugal format.read) (count : Nat) :
    Frugal (readMany format.read count) := by
  induction count with
  | zero => exact .done []
  | succ count ih => exact h.bind fun a => ih.bind fun others => .done (a :: others)

theorem restores_list {values : List α} (hlen : values.length < 2 ^ 64)
    (h : ∀ a ∈ values, format.Restores a) : format.list.Restores values := by
  intro rest
  have hcount : nat64.Restores values.length := restores_nat hlen
  simp only [list, List.append_assoc, hcount _, Option.bind_eq_bind, Option.bind_some,
    readMany_append h]

theorem frugal_list (h : Frugal format.read) : Frugal format.list.read :=
  (frugal_nat 8).bind (frugal_readMany h)

end Sequence

/-! ## Truth values, options and texts -/

theorem restores_bool (b : Bool) : bool.Restores b :=
  restores_convert (restores_byte _) (by cases b <;> rfl)

theorem frugal_bool : Frugal bool.read := frugal_convert _ frugal_byte

theorem restores_option {format : Format α} {value : Option α}
    (h : ∀ a ∈ value, format.Restores a) : format.option.Restores value := by
  intro rest
  cases value with
  | none => simp only [option, restores_bool false rest, Option.bind_eq_bind, Option.bind_some,
      Bool.false_eq_true, if_false, Option.pure_def]
  | some a =>
      simp only [option, List.append_assoc, restores_bool true _, h a rfl rest,
        Option.bind_eq_bind, Option.bind_some, if_true, Option.pure_def]

theorem frugal_option {format : Format α} (h : Frugal format.read) :
    Frugal format.option.read := by
  have hvalue : ∀ there : Bool, Frugal fun rest =>
      if there then (format.read rest).bind fun read => some (some read.1, read.2)
      else some (none, rest) := by
    intro there
    cases there with
    | false => exact .done none
    | true => exact h.bind fun a => .done (some a)
  exact frugal_bool.bind hvalue

theorem restores_bytes {values : List UInt8} (h : values.length < 2 ^ 64) :
    bytes.Restores values := restores_list h fun b _ => restores_byte b

theorem frugal_bytes : Frugal bytes.read := frugal_list frugal_byte

/-- The bytes of a byte array, from a place on. -/
theorem toList_loop (array : ByteArray) (i : Nat) (read : List UInt8) :
    ByteArray.toList.loop array i read = read.reverse ++ array.data.toList.drop i := by
  induction i, read using ByteArray.toList.loop.induct array with
  | case1 i read hlt ih =>
      rw [ByteArray.toList.loop, if_pos hlt, ih]
      have hi : i < array.data.toList.length := by simpa using hlt
      rw [List.drop_eq_getElem_cons hi, List.reverse_cons, List.append_assoc]
      have hget : array.get! i = array.data.toList[i] := by
        show array.data[i]! = _
        rw [getElem!_pos array.data i hlt, Array.getElem_toList]
      rw [hget, List.singleton_append]
  | case2 i read hge =>
      rw [ByteArray.toList.loop, if_neg hge, List.drop_eq_nil_of_le (by simpa using hge),
        List.append_nil]

theorem toList_eq (array : ByteArray) : array.toList = array.data.toList := toList_loop array 0 []

theorem restores_text {s : String} (h : s.utf8ByteSize < 2 ^ 64) : text.Restores s := by
  refine restores_convert (restores_bytes ?_) ?_
  · rw [toList_eq, Array.length_toList]
    exact h
  · rw [toList_eq, Array.toArray_toList]
    exact dif_pos s.isValidUTF8

theorem frugal_text : Frugal text.read := frugal_convert _ frugal_bytes

/-! ## Alternatives -/

theorem restores_among [DecidableEq α] {all : List α} {a : α} (ha : a ∈ all)
    (hl : all.length ≤ 2 ^ 32) : (among all).Restores a :=
  restores_convert
    (restores_nat (Nat.lt_of_lt_of_le (List.idxOf_lt_length_of_mem ha) hl))
    (List.getElem?_idxOf ha)

theorem frugal_among [DecidableEq α] (all : List α) : Frugal (among all).read :=
  frugal_convert _ (frugal_nat 4)

/-- The alternative of a value is the first that has it. -/
theorem writeBranch_eq {a : α} {branch : Branch α} {payload : List UInt8}
    (hw : branch.write? a = some payload) :
    ∀ {all : List (Branch α)} {i : Nat} (index : Nat), all[i]? = some branch →
      (∀ other ∈ all.take i, other.write? a = none) →
      writeBranch a index all = nat32.write (index + i) ++ payload := by
  intro all
  induction all with
  | nil => exact fun index hi _ => absurd hi (by simp)
  | cons first others ih =>
      intro i index hi hnone
      cases i with
      | zero =>
          cases hi
          rw [writeBranch, hw]
          rfl
      | succ i =>
          rw [List.take_succ_cons] at hnone
          rw [writeBranch, hnone first List.mem_cons_self]
          simp only [ih (index + 1) hi fun other ho => hnone other (List.mem_cons_of_mem _ ho),
            Nat.add_right_comm, Nat.add_assoc]

theorem restores_branches {all : List (Branch α)} {format : Format β} (wrap : β → α)
    {unwrap? : α → Option β} {b : β} (i : Nat) (h : format.Restores b)
    (hi : all[i]? = some (.of format wrap unwrap?)) (hu : unwrap? (wrap b) = some b)
    (hnone : ∀ other ∈ all.take i, other.write? (wrap b) = none) (hl : i < 2 ^ 32) :
    (branches all).Restores (wrap b) := by
  intro rest
  have hw : (Branch.of format wrap unwrap?).write? (wrap b) = some (format.write b) := by
    simp only [Branch.of, hu, Option.map_some]
  have hindex : nat32.Restores i := restores_nat hl
  simp only [branches, writeBranch_eq hw 0 hi hnone, Nat.zero_add, List.append_assoc, hindex _,
    Option.bind_eq_bind, Option.bind_some, hi]
  simp only [Branch.of, h _, Option.bind_eq_bind, Option.bind_some, Option.pure_def]

theorem frugal_branches {all : List (Branch α)} (h : ∀ branch ∈ all, Frugal branch.read) :
    Frugal (branches all).read := by
  have hpayload : ∀ index : Nat, Frugal fun rest =>
      all[index]?.bind fun branch : Branch α => branch.read rest := by
    intro index
    cases hi : all[index]? with
    | none => exact .fail
    | some branch => exact h branch (List.mem_of_getElem? hi)
  exact (frugal_nat 4).bind hpayload

theorem frugal_branch {format : Format β} {wrap : β → α} {unwrap? : α → Option β}
    (h : Frugal format.read) : Frugal (Branch.of format wrap unwrap?).read :=
  h.bind fun b => .done (wrap b)

end Format

end Rulebook
