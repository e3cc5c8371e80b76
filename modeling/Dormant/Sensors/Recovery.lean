import Dormant.Sensors.Framing

/-!
# Frames behind damage

A stream of frames, truncated frames and garbage is read as the states of its complete frames: no
header is met but those of frames and of truncated frames, and no truncated frame finds a tail where
it looks for one.
-/

namespace Dormant
set_option autoImplicit false

/-! ## Streams -/

/-- The frame with these data. -/
def frameBytes (data : List UInt8) : List UInt8 :=
  frameHeader ++
    (UInt8.ofNat data.length :: UInt8.ofNat (data.length / 256) :: (data ++ frameTail))

inductive Segment where
  | garbage (bytes : List UInt8)
  | frame (data : List UInt8)
  /-- The first `n` bytes of a frame. -/
  | truncated (data : List UInt8) (n : ℕ)
  deriving DecidableEq, Repr

def Segment.bytes : Segment → List UInt8
  | .garbage bytes => bytes
  | .frame data => frameBytes data
  | .truncated data n => (frameBytes data).take n

def streamBytes (segments : List Segment) : List UInt8 := segments.flatMap Segment.bytes

/-- What a complete frame of type 2 reports. -/
def Segment.reported : Segment → Option Ld2410Frame
  | .frame data => if data[0]? = some 2 then data[2]?.map Ld2410Frame.mk else none
  | _ => none

/-- The data of a frame that has neither a header nor a tail in it. -/
structure Plain (data : List UInt8) : Prop where
  least : 3 ≤ data.length
  most : data.length ≤ 256
  noHeader : ¬ frameHeader <:+: data
  noTail : ¬ frameTail <:+: data

/-- Where `bytes` is followed by `rest`, no header starts in it. -/
def Headerless (bytes rest : List UInt8) : Prop :=
  ∀ k < bytes.length, ¬ frameHeader <+: (bytes ++ rest).drop k

/-- A truncated frame before these segments: they have frames of its length only, and its data are
not cut within what could be a header. -/
structure Truncates (data : List UInt8) (n : ℕ) (segments : List Segment) : Prop where
  plain : Plain data
  nonempty : 0 < n
  proper : n < (frameBytes data).length
  same : ∀ data', Segment.frame data' ∈ segments → data'.length = data.length
  clean : 6 < n → ∀ j < 4, 0 < j → ¬ frameHeader.take j <:+ (frameBytes data).take n

/-- A stream with damage. -/
def Damaged : List Segment → Prop
  | [] => True
  | .garbage bytes :: segments => Headerless bytes (streamBytes segments) ∧ Damaged segments
  | .frame data :: segments => Plain data ∧ Damaged segments
  | .truncated data n :: segments => Truncates data n segments ∧ Damaged segments

/-- The bytes before the first complete frame. -/
def beforeFrame : List Segment → List UInt8
  | [] => []
  | .frame _ :: _ => []
  | segment :: segments => segment.bytes ++ beforeFrame segments

/-- Garbage does not complete truncated frames: there is none directly behind one that is cut before
its data, and no tail between one and the next complete frame. -/
def Undisguised : List Segment → Prop
  | [] => True
  | .truncated data n :: segments =>
    (n < 6 → ∀ bytes, segments.head? ≠ some (.garbage bytes)) ∧
      ¬ frameTail <:+: (frameBytes data).take n ++ beforeFrame segments ∧ Undisguised segments
  | _ :: segments => Undisguised segments

/-! ## Bytes -/

theorem getElem?_of_begins {pattern xs : List UInt8} (h : pattern <+: xs) {m : ℕ}
    (hm : m < pattern.length) : xs[m]? = pattern[m]? := by
  obtain ⟨t, rfl⟩ := h
  exact List.getElem?_append_left hm

theorem lengthByte_high {n : ℕ} (h : n ≤ 256) :
    UInt8.ofNat (n / 256) = 0 ∨ UInt8.ofNat (n / 256) = 1 := by
  have hhigh : n / 256 = 0 ∨ n / 256 = 1 := by omega
  rcases hhigh with hhigh | hhigh <;> rw [hhigh]
  · exact .inl rfl
  · exact .inr rfl

theorem lengthBytes_value {n : ℕ} (h : n ≤ 256) :
    (UInt8.ofNat n).toNat + 256 * (UInt8.ofNat (n / 256)).toNat = n := by
  rw [UInt8.toNat_ofNat', UInt8.toNat_ofNat']
  omega

theorem frameBytes_append (data rest : List UInt8) :
    frameBytes data ++ rest =
      0xF4 :: 0xF3 :: 0xF2 :: 0xF1 :: UInt8.ofNat data.length ::
        UInt8.ofNat (data.length / 256) :: (data ++ (frameTail ++ rest)) := by
  unfold frameBytes frameHeader
  simp only [List.cons_append, List.nil_append, List.append_assoc]

theorem frameBytes_length (data : List UInt8) : (frameBytes data).length = data.length + 10 := by
  have h := congrArg List.length (frameBytes_append data [])
  rw [List.append_nil] at h
  rw [h]
  simp only [List.length_cons, List.length_append, List.append_nil]
  rfl

theorem tail_at (data rest : List UInt8) (i : ℕ) :
    (data ++ (frameTail ++ rest))[data.length + i]? = (frameTail ++ rest)[i]? := by
  rw [List.getElem?_append_right (Nat.le_add_right _ _), Nat.add_sub_cancel_left]

/-- A pattern within the data. -/
theorem infix_of_drop {pattern data rest : List UInt8} {j : ℕ}
    (hj : j + pattern.length ≤ data.length) (h : pattern <+: (data ++ rest).drop j) :
    pattern <:+: data := by
  rw [List.drop_append_of_le_length (by omega)] at h
  have hlength : pattern.length ≤ (data.drop j).length := by
    rw [List.length_drop]
    omega
  have hdata := List.prefix_of_prefix_length_le h (List.prefix_append _ _) hlength
  exact hdata.isInfix.trans (List.drop_suffix j data).isInfix

/-- A frame has its header at its front only. -/
theorem header_in_frame {data : List UInt8} (h : Plain data) (rest : List UInt8) {k : ℕ}
    (hpos : 0 < k) (hk : k < (frameBytes data).length) :
    ¬ frameHeader <+: (frameBytes data ++ rest).drop k := by
  intro hheader
  rw [frameBytes_append] at hheader
  rw [frameBytes_length] at hk
  have hbyte {m : ℕ} (hm : m < 4) := getElem?_of_begins hheader hm
  have hhigh := lengthByte_high h.most
  generalize UInt8.ofNat (data.length / 256) = high at *
  match k with
  | 1 =>
    have hwrong : some (0xF3 : UInt8) = some 0xF4 := hbyte (Nat.zero_lt_succ 3)
    exact absurd hwrong (by decide)
  | 2 =>
    have hwrong : some (0xF2 : UInt8) = some 0xF4 := hbyte (Nat.zero_lt_succ 3)
    exact absurd hwrong (by decide)
  | 3 =>
    have hwrong : some (0xF1 : UInt8) = some 0xF4 := hbyte (Nat.zero_lt_succ 3)
    exact absurd hwrong (by decide)
  | 4 =>
    have hwrong : some high = some 0xF3 := hbyte (m := 1) (by decide)
    rcases hhigh with rfl | rfl <;> exact absurd hwrong (by decide)
  | 5 =>
    have hwrong : some high = some 0xF4 := hbyte (Nat.zero_lt_succ 3)
    rcases hhigh with rfl | rfl <;> exact absurd hwrong (by decide)
  | j + 6 =>
    have hdata : frameHeader <+: (data ++ (frameTail ++ rest)).drop j := hheader
    by_cases hwithin : j + 4 ≤ data.length
    · exact h.noHeader (infix_of_drop hwithin hdata)
    · -- a byte of the header would be one of the tail
      obtain ⟨m, i, hm, hi, hmi⟩ : ∃ m i, m < 4 ∧ i < 4 ∧ j + m = data.length + i :=
        ⟨data.length - j, j - data.length, by omega, by omega, by omega⟩
      have hsame := getElem?_of_begins hdata hm
      rw [List.getElem?_drop, hmi, tail_at, List.getElem?_append_left hi] at hsame
      have hdifferent : ∀ m < 4, ∀ i < 4, frameTail[i]? ≠ frameHeader[m]? := by decide
      exact hdifferent m hm i hi hsame

/-- A frame has its tail at its end only. -/
theorem tail_in_frame {data : List UInt8} (h : Plain data) (rest : List UInt8) {k : ℕ}
    (hk : k ≤ data.length) : ¬ frameTail <+: (frameBytes data ++ rest).drop k := by
  intro htail
  rw [frameBytes_append] at htail
  have hbyte {m : ℕ} (hm : m < 4) := getElem?_of_begins htail hm
  have hhigh := lengthByte_high h.most
  generalize UInt8.ofNat (data.length / 256) = high at *
  match k with
  | 0 =>
    have hwrong : some (0xF4 : UInt8) = some 0xF8 := hbyte (Nat.zero_lt_succ 3)
    exact absurd hwrong (by decide)
  | 1 =>
    have hwrong : some (0xF3 : UInt8) = some 0xF8 := hbyte (Nat.zero_lt_succ 3)
    exact absurd hwrong (by decide)
  | 2 =>
    have hwrong : some (0xF2 : UInt8) = some 0xF8 := hbyte (Nat.zero_lt_succ 3)
    exact absurd hwrong (by decide)
  | 3 =>
    have hwrong : some (0xF1 : UInt8) = some 0xF8 := hbyte (Nat.zero_lt_succ 3)
    exact absurd hwrong (by decide)
  | 4 =>
    have hwrong : some high = some 0xF7 := hbyte (m := 1) (by decide)
    rcases hhigh with rfl | rfl <;> exact absurd hwrong (by decide)
  | 5 =>
    have hwrong : some high = some 0xF8 := hbyte (Nat.zero_lt_succ 3)
    rcases hhigh with rfl | rfl <;> exact absurd hwrong (by decide)
  | j + 6 =>
    have hdata : frameTail <+: (data ++ (frameTail ++ rest)).drop j := htail
    have hlength : frameTail.length = 4 := rfl
    exact h.noTail (infix_of_drop (by omega) hdata)

/-! ## Scanning segments -/

theorem frames_skip {xs : List UInt8} (h : ¬ frameHeader <+: xs) :
    radar.frames xs = radar.frames (xs.drop 1) := by
  by_cases hshort : xs.length < 4
  · have hshort' : (xs.drop 1).length < 4 := by
      rw [List.length_drop]
      omega
    rw [Scanner.frames_of_wait (look_short hshort), Scanner.frames_of_wait (look_short hshort')]
  · have hother : xs.take 4 ≠ frameHeader := fun heq => h (heq ▸ List.take_prefix 4 xs)
    have hskip := Scanner.leaves_skip (look_other (Nat.not_lt.mp hshort) hother) []
    rw [List.append_nil, List.append_nil, List.nil_append] at hskip
    exact hskip

/-- Bytes in which no header starts are skipped. -/
theorem frames_headless {bytes rest : List UInt8} (h : Headerless bytes rest) :
    radar.frames (bytes ++ rest) = radar.frames rest := by
  induction bytes with
  | nil => rfl
  | cons byte bytes ih =>
    have hfirst : ¬ frameHeader <+: byte :: bytes ++ rest := h 0 (Nat.succ_pos _)
    rw [frames_skip hfirst]
    refine ih fun k hk => ?_
    exact h (k + 1) (Nat.succ_lt_succ hk)

theorem frames_frame {data : List UInt8} (h : Plain data) (rest : List UInt8) :
    radar.frames (frameBytes data ++ rest) =
      (Segment.frame data).reported.toList ++ radar.frames rest := by
  have hleast := h.least
  have hmost := h.most
  have hmax : maxBufSize = 4096 := rfl
  have hlook : radar.look (frameBytes data ++ rest) =
      .take (data.length + 9) (Segment.frame data).reported := by
    have hfront : frameBytes data ++ rest = frameHeader ++ (UInt8.ofNat data.length ::
        UInt8.ofNat (data.length / 256) :: (data ++ (frameTail ++ rest))) :=
      frameBytes_append data rest
    rw [hfront, look_header]
    unfold lookFrame Segment.reported
    dsimp only
    rw [lengthBytes_value hmost, if_neg (by omega), List.length_append, if_neg, List.drop_left,
      if_pos, List.getElem?_append_left (by omega), List.getElem?_append_left (by omega)]
    · rfl
    · rw [List.length_append]
      have htail : frameTail.length = 4 := rfl
      omega
  have hleaves := Scanner.leaves_take hlook []
  rw [List.append_nil, List.append_nil, List.drop_left' (frameBytes_length data)] at hleaves
  exact hleaves

/-! ## Truncated frames -/

/-- What follows a frame that is cut early: nothing, or what begins as a header does. -/
def Opens (rest : List UInt8) : Prop :=
  rest[0]?.all (· = 0xF4) = true ∧ rest[1]?.all (fun byte => byte = 0xF3 ∨ byte = 0xF4) = true

theorem opens_of_head {segments : List Segment} (hundisguised : Undisguised segments)
    (h : ∀ bytes, segments.head? ≠ some (.garbage bytes))
    (hsome : ∀ data n, Segment.truncated data n ∈ segments → 0 < n) :
    Opens (streamBytes segments) := by
  induction segments with
  | nil => exact ⟨rfl, rfl⟩
  | cons segment segments ih =>
    cases segment with
    | garbage bytes => exact absurd rfl (h bytes)
    | frame data => exact ⟨rfl, rfl⟩
    | truncated data n =>
      have hpos := hsome data n List.mem_cons_self
      match n with
      | 1 =>
        have hrest := ih hundisguised.2.2 (hundisguised.1 (by decide))
          fun data' n' hmem => hsome data' n' (List.mem_cons_of_mem _ hmem)
        refine ⟨rfl, ?_⟩
        have hsecond : (streamBytes (.truncated data 1 :: segments))[1]? =
            (streamBytes segments)[0]? := rfl
        rw [hsecond]
        have hfirst := hrest.1
        cases hbyte : (streamBytes segments)[0]? with
        | none => rfl
        | some byte =>
          rw [hbyte] at hfirst
          have heq : byte = 0xF4 := of_decide_eq_true hfirst
          rw [heq]
          decide
      | m + 2 => exact ⟨rfl, rfl⟩

section Truncated

variable {data rest : List UInt8} {n : ℕ} {segments : List Segment}

theorem Truncates.length (h : Truncates data n segments) :
    ((frameBytes data).take n).length = n := by
  rw [List.length_take]
  exact Nat.min_eq_left (Nat.le_of_lt h.proper)

/-- No header starts in a truncated frame, but at its front. -/
theorem header_in_truncated (h : Truncates data n segments) (hrest : n < 6 → Opens rest) {k : ℕ}
    (hk : k < n) (hpos : 0 < k ∨ n < 4) :
    ¬ frameHeader <+: ((frameBytes data).take n ++ rest).drop k := by
  intro hheader
  have hlength := h.length
  have hfour : frameHeader.length = 4 := rfl
  have hdrop : ((frameBytes data).take n ++ rest).drop k =
      ((frameBytes data).take n).drop k ++ rest :=
    List.drop_append_of_le_length (by omega)
  have hkept : (((frameBytes data).take n).drop k).length = n - k := by
    rw [List.length_drop, hlength]
  by_cases hwithin : k + 4 ≤ n
  · rw [hdrop] at hheader
    have hcut := List.prefix_of_prefix_length_le hheader (List.prefix_append _ _)
      (hkept ▸ (by omega : frameHeader.length ≤ n - k))
    have hframe : frameHeader <+: (frameBytes data ++ []).drop k := by
      rw [List.append_nil]
      exact hcut.trans ((List.take_prefix n _).drop k)
    exact header_in_frame h.plain [] (by omega) (by have := h.proper; omega) hframe
  -- the header would go on in what follows
  obtain ⟨j, hj, hlast, hkj⟩ : ∃ j, 0 < j ∧ j < 4 ∧ k + j = n :=
    ⟨n - k, by omega, by omega, by omega⟩
  have hnext := getElem?_of_begins hheader hlast
  rw [List.getElem?_drop, hkj, List.getElem?_append_right (by omega), hlength, Nat.sub_self]
    at hnext
  by_cases hshort : n < 6
  · have hfirst := (hrest hshort).1
    rw [hnext] at hfirst
    have hwrong : ∀ j < 4, 0 < j → (frameHeader[j]?).all (· = 0xF4) ≠ true := by decide
    exact hwrong j hlast hj hfirst
  by_cases hsix : n = 6
  · have hbefore := getElem?_of_begins hheader (by omega : j - 1 < frameHeader.length)
    have hindex : k + (j - 1) = 5 := by omega
    subst hsix
    rw [List.getElem?_drop, hindex, List.getElem?_append_left (by omega)] at hbefore
    have hhigh : ((frameBytes data).take 6)[5]? = some (UInt8.ofNat (data.length / 256)) := rfl
    rw [hhigh] at hbefore
    have hwrong : ∀ j < 4, 0 < j → frameHeader[j - 1]? ≠ some 0 ∧ frameHeader[j - 1]? ≠ some 1 := by
      decide
    rcases lengthByte_high h.plain.most with hzero | hone
    · exact (hwrong j hlast hj).1 (by rw [← hbefore, hzero])
    · exact (hwrong j hlast hj).2 (by rw [← hbefore, hone])
  · refine h.clean (by omega) j hlast hj ?_
    have htaken : frameHeader.take j = ((frameBytes data).take n).drop k := by
      obtain ⟨t, ht⟩ := hheader
      have hcut := congrArg (List.take j) ht
      rw [hdrop, List.take_append_of_le_length (by omega)] at hcut
      rw [hcut]
      exact List.take_left' (by omega)
    rw [htaken]
    exact List.drop_suffix k _

/-- The bytes up to the first complete frame, and what begins there. -/
theorem beforeFrame_append (segments : List Segment) :
    (∃ data more, Segment.frame data ∈ segments ∧
        streamBytes segments = beforeFrame segments ++ (frameBytes data ++ more)) ∨
      streamBytes segments = beforeFrame segments ∧ segments.filterMap Segment.reported = [] := by
  induction segments with
  | nil => exact .inr ⟨rfl, rfl⟩
  | cons segment segments ih =>
    cases segment with
    | frame data => exact .inl ⟨data, streamBytes segments, List.mem_cons_self, rfl⟩
    | garbage bytes =>
      rcases ih with ⟨data, more, hmem, hbytes⟩ | ⟨hbytes, hnone⟩
      · refine .inl ⟨data, more, List.mem_cons_of_mem _ hmem, ?_⟩
        exact (congrArg (bytes ++ ·) hbytes).trans (List.append_assoc _ _ _).symm
      · exact .inr ⟨congrArg (bytes ++ ·) hbytes, hnone⟩
    | truncated data' n =>
      rcases ih with ⟨data, more, hmem, hbytes⟩ | ⟨hbytes, hnone⟩
      · refine .inl ⟨data, more, List.mem_cons_of_mem _ hmem, ?_⟩
        exact (congrArg ((frameBytes data').take n ++ ·) hbytes).trans
          (List.append_assoc _ _ _).symm
      · exact .inr ⟨congrArg ((frameBytes data').take n ++ ·) hbytes, hnone⟩

/-- A truncated frame finds no tail where it looks for one. -/
theorem tail_in_truncated (h : Truncates data n segments) (hlong : 6 ≤ n)
    (hnoTail : ¬ frameTail <:+: (frameBytes data).take n ++ beforeFrame segments)
    (hdamaged : ∀ data', Segment.frame data' ∈ segments → Plain data') :
    ¬ frameTail <+: ((frameBytes data).take n ++ streamBytes segments).drop (data.length + 6) := by
  intro htail
  have hlength := h.length
  have hfour : frameTail.length = 4 := rfl
  rcases beforeFrame_append segments with ⟨data', more, hmem, hbytes⟩ | ⟨hbytes, -⟩
  · rw [hbytes, ← List.append_assoc] at htail
    have hfront : n ≤ ((frameBytes data).take n ++ beforeFrame segments).length := by
      rw [List.length_append, hlength]
      omega
    generalize (frameBytes data).take n ++ beforeFrame segments = front at *
    by_cases hwithin : data.length + 6 + 4 ≤ front.length
    · exact hnoTail (infix_of_drop (by omega) htail)
    by_cases hafter : front.length ≤ data.length + 6
    · rw [List.drop_append, List.drop_eq_nil_of_le hafter, List.nil_append] at htail
      refine tail_in_frame (hdamaged data' hmem) more ?_ htail
      have hsame := h.same data' hmem
      omega
    · -- the first byte of the next frame would be one of the tail
      obtain ⟨m, hm, hlast, hindex⟩ : ∃ m, 0 < m ∧ m < 4 ∧ data.length + 6 + m = front.length :=
        ⟨front.length - (data.length + 6), by omega, by omega, by omega⟩
      have hbyte := getElem?_of_begins htail hlast
      rw [List.getElem?_drop, hindex, List.getElem?_append_right (Nat.le_refl _), Nat.sub_self]
        at hbyte
      have hfirst : (frameBytes data' ++ more)[0]? = some 0xF4 := rfl
      rw [hfirst] at hbyte
      have hwrong : ∀ m < 4, some 0xF4 ≠ frameTail[m]? := by decide
      exact hwrong m hlast hbyte
  · rw [hbytes] at htail
    exact hnoTail (htail.isInfix.trans (List.drop_suffix _ _).isInfix)

/-- The length that is read behind the header of a truncated frame is its own, or too large. -/
theorem length_in_truncated (h : Truncates data n segments) (hfour : 4 ≤ n)
    (hrest : n < 6 → Opens rest) {low high : UInt8} {more : List UInt8}
    (hmore : (frameBytes data).take n ++ rest = frameHeader ++ (low :: high :: more)) :
    6 ≤ n ∧ low.toNat + 256 * high.toNat = data.length ∨
      maxBufSize < low.toNat + 256 * high.toNat + 10 := by
  have hmax : maxBufSize = 4096 := rfl
  have hlength := h.length
  have hlow : ((frameBytes data).take n ++ rest)[4]? = some low := by
    rw [hmore]
    rfl
  have hhigh : ((frameBytes data).take n ++ rest)[5]? = some high := by
    rw [hmore]
    rfl
  by_cases hlong : 6 ≤ n
  · rw [List.getElem?_append_left (by omega), List.getElem?_take_of_lt (by omega)] at hlow hhigh
    have hlow' : UInt8.ofNat data.length = low := Option.some.inj hlow
    have hhigh' : UInt8.ofNat (data.length / 256) = high := Option.some.inj hhigh
    refine .inl ⟨hlong, ?_⟩
    rw [← hlow', ← hhigh']
    exact lengthBytes_value h.plain.most
  -- the high byte is one of the next header
  right
  obtain ⟨hfirst, hsecond⟩ := hrest (by omega)
  rw [List.getElem?_append_right (by omega), hlength] at hhigh
  have hlarge : 0xF3 ≤ high.toNat := by
    by_cases hfive : n = 5
    · subst hfive
      rw [hhigh] at hfirst
      have heq : high = 0xF4 := of_decide_eq_true hfirst
      rw [heq]
      decide
    · have hn : n = 4 := by omega
      subst hn
      rw [hhigh] at hsecond
      have heq : high = 0xF3 ∨ high = 0xF4 := of_decide_eq_true hsecond
      rcases heq with rfl | rfl <;> decide
  omega

/-- The look at a truncated frame waits, for no more than its own length, or goes on. -/
theorem look_truncated (h : Truncates data n segments) (hfour : 4 ≤ n)
    (hrest : n < 6 → Opens (streamBytes segments))
    (hnoTail : ¬ frameTail <:+: (frameBytes data).take n ++ beforeFrame segments)
    (hdamaged : ∀ data', Segment.frame data' ∈ segments → Plain data') :
    radar.look ((frameBytes data).take n ++ streamBytes segments) = .skip ∨
      radar.look ((frameBytes data).take n ++ streamBytes segments) = .wait ∧
        (streamBytes segments).length < data.length + 10 := by
  have hmax : maxBufSize = 4096 := rfl
  have hleast := h.plain.least
  have hmost := h.plain.most
  obtain ⟨bytes, hbytes⟩ : ∃ bytes, (frameBytes data).take n ++ streamBytes segments =
      frameHeader ++ bytes := by
    obtain ⟨m, rfl⟩ : ∃ m, n = m + 4 := ⟨n - 4, by omega⟩
    exact ⟨_, rfl⟩
  have hlength : n + (streamBytes segments).length = bytes.length + 4 := by
    have hall := congrArg List.length hbytes
    rw [List.length_append, h.length, List.length_append] at hall
    have hheader : frameHeader.length = 4 := rfl
    omega
  have hvalue {low high : UInt8} {more : List UInt8} (hmore : bytes = low :: high :: more) :=
    length_in_truncated h hfour hrest (hmore ▸ hbytes)
  have hmissing := tail_in_truncated h
  rw [hbytes] at hmissing ⊢
  rw [look_header]
  match bytes with
  | [] =>
    rw [List.length_nil] at hlength
    exact .inr ⟨rfl, by omega⟩
  | [_] =>
    rw [List.length_singleton] at hlength
    exact .inr ⟨rfl, by omega⟩
  | low :: high :: more =>
    have hread := hvalue rfl
    rw [List.length_cons, List.length_cons] at hlength
    unfold lookFrame
    dsimp only
    rcases hread with ⟨hlong, hown⟩ | hlarge
    · rw [hown, if_neg (by omega)]
      by_cases hshort : more.length < data.length + 4
      · rw [if_pos hshort]
        exact .inr ⟨rfl, by omega⟩
      · rw [if_neg hshort, if_neg]
        · exact .inl rfl
        · intro htail
          refine hmissing hlong hnoTail hdamaged ?_
          have hdrop : (frameHeader ++ low :: high :: more).drop (data.length + 6) =
              more.drop data.length := rfl
          rw [hdrop, ← htail]
          exact List.take_prefix 4 _
    · exact .inl (if_pos (.inr hlarge))

end Truncated

theorem Damaged.rest {segment : Segment} {segments : List Segment}
    (h : Damaged (segment :: segments)) : Damaged segments := by
  cases segment <;> exact h.2

theorem Damaged.plain {segments : List Segment} (h : Damaged segments) {data : List UInt8}
    (hmem : Segment.frame data ∈ segments) : Plain data := by
  induction segments with
  | nil => cases hmem
  | cons segment segments ih =>
    rcases List.mem_cons.mp hmem with rfl | hmem
    · exact h.1
    · exact ih h.rest hmem

theorem Damaged.nonempty {segments : List Segment} (h : Damaged segments) {data : List UInt8}
    {n : ℕ} (hmem : Segment.truncated data n ∈ segments) : 0 < n := by
  induction segments with
  | nil => cases hmem
  | cons segment segments ih =>
    rcases List.mem_cons.mp hmem with rfl | hmem
    · exact h.1.nonempty
    · exact ih h.rest hmem

theorem frame_fits {segments : List Segment} {data : List UInt8}
    (hmem : Segment.frame data ∈ segments) :
    data.length + 10 ≤ (streamBytes segments).length := by
  induction segments with
  | nil => cases hmem
  | cons segment segments ih =>
    unfold streamBytes at ih ⊢
    rw [List.flatMap_cons, List.length_append]
    rcases List.mem_cons.mp hmem with rfl | hmem
    · have hlength : (Segment.frame data).bytes.length = data.length + 10 :=
        frameBytes_length data
      omega
    · have hrest := ih hmem
      omega

theorem reported_of_frames {segments : List Segment}
    (h : ∀ data, Segment.frame data ∉ segments) : segments.filterMap Segment.reported = [] := by
  refine List.filterMap_eq_nil_iff.mpr fun segment hmem => ?_
  cases segment with
  | frame data => exact absurd hmem (h data)
  | garbage bytes => rfl
  | truncated data n => rfl

theorem frames_truncated {data : List UInt8} {n : ℕ} {segments : List Segment}
    (hdamaged : Damaged (.truncated data n :: segments))
    (hundisguised : Undisguised (.truncated data n :: segments))
    (ih : radar.frames (streamBytes segments) = segments.filterMap Segment.reported) :
    radar.frames ((frameBytes data).take n ++ streamBytes segments) =
      segments.filterMap Segment.reported := by
  obtain ⟨h, hrest⟩ := hdamaged
  obtain ⟨hhead, hnoTail, hundisguised⟩ := hundisguised
  have hopens (hshort : n < 6) : Opens (streamBytes segments) :=
    opens_of_head hundisguised (hhead hshort) fun _ _ hmem => hrest.nonempty hmem
  by_cases hfour : 4 ≤ n
  swap
  · rw [← ih]
    refine frames_headless fun k hk => ?_
    rw [h.length] at hk
    exact header_in_truncated h hopens hk (.inr (by omega))
  rcases look_truncated h hfour hopens hnoTail fun _ hmem => hrest.plain hmem with
    hskip | ⟨hwait, hshort⟩
  · have hleaves := Scanner.leaves_skip hskip []
    rw [List.append_nil, List.append_nil, List.nil_append,
      List.drop_append_of_le_length (by rw [h.length]; omega)] at hleaves
    rw [hleaves, ← ih]
    refine frames_headless fun k hk => ?_
    rw [List.length_drop, h.length] at hk
    have hheader := header_in_truncated h hopens (by omega : k + 1 < n) (.inl (Nat.succ_pos k))
    rw [Nat.add_comm, ← List.drop_drop, List.drop_append_of_le_length (by rw [h.length]; omega)]
      at hheader
    exact hheader
  · rw [Scanner.frames_of_wait hwait, reported_of_frames fun data' hmem => ?_]
    have hsame := h.same data' hmem
    have hfits := frame_fits hmem
    omega

/-- One scan finds the complete frames. -/
theorem frames_damaged {segments : List Segment} (hdamaged : Damaged segments)
    (hundisguised : Undisguised segments) :
    radar.frames (streamBytes segments) = segments.filterMap Segment.reported := by
  induction segments with
  | nil => rfl
  | cons segment segments ih =>
    have hsplit : streamBytes (segment :: segments) = segment.bytes ++ streamBytes segments :=
      List.flatMap_cons
    rw [hsplit]
    cases segment with
    | garbage bytes => exact (frames_headless hdamaged.1).trans (ih hdamaged.2 hundisguised)
    | frame data =>
      refine (frames_frame hdamaged.1 _).trans ?_
      rw [ih hdamaged.2 hundisguised, List.filterMap_cons]
      cases (Segment.frame data).reported <;> rfl
    | truncated data n =>
      exact frames_truncated hdamaged hundisguised (ih hdamaged.2 hundisguised.2.2)

/-! ## The parser -/

theorem announced_some {bytes : List UInt8} {total : ℕ} (h : announced bytes = some total) :
    frameHeader <+: bytes ∧ ∃ low high more, bytes = frameHeader ++ (low :: high :: more) ∧
      total = low.toNat + 256 * high.toNat + 10 := by
  unfold announced at h
  split at h
  · rename_i low high more hdrop
    split at h
    · rename_i hheader
      have hbytes : bytes = frameHeader ++ (low :: high :: more) := by
        rw [← hdrop, ← hheader, List.take_append_drop]
      exact ⟨hheader ▸ List.take_prefix 4 bytes, low, high, more, hbytes,
        (Option.some.inj h).symm⟩
    · cases h
  · cases h

/-- The headers of the stream announce no more than a frame has, or too much. -/
theorem damaged_modest {segments : List Segment} (hdamaged : Damaged segments)
    (hundisguised : Undisguised segments) : Modest (streamBytes segments) := by
  have hmax : maxBufSize = 4096 := rfl
  have hread : readBufSize = 256 := rfl
  induction segments with
  | nil =>
    intro bytes hbytes total htotal
    rw [List.mem_singleton.mp hbytes] at htotal
    cases htotal
  | cons segment segments ih =>
    have hrest : Modest (streamBytes segments) := by
      cases segment with
      | garbage bytes => exact ih hdamaged.2 hundisguised
      | frame data => exact ih hdamaged.2 hundisguised
      | truncated data n => exact ih hdamaged.2 hundisguised.2.2
    intro bytes hbytes total htotal
    have hsplit : streamBytes (segment :: segments) = segment.bytes ++ streamBytes segments :=
      List.flatMap_cons
    rw [hsplit, List.mem_tails] at hbytes
    obtain ⟨hheader, low, high, more, hfront, rfl⟩ := announced_some htotal
    obtain ⟨k, hk⟩ : ∃ k, bytes = (segment.bytes ++ streamBytes segments).drop k :=
      ⟨_, (List.suffix_iff_eq_drop.mp hbytes)⟩
    by_cases hafter : segment.bytes.length ≤ k
    · refine hrest bytes ((List.mem_tails _ _).mpr ?_) _ htotal
      rw [hk, List.drop_append, List.drop_eq_nil_of_le hafter, List.nil_append]
      exact List.drop_suffix _ _
    rw [hk] at hheader
    cases segment with
    | garbage bytes => exact absurd hheader (hdamaged.1 k (Nat.lt_of_not_le hafter))
    | frame data =>
      have hzero : k = 0 := by
        by_contra hpos
        exact header_in_frame hdamaged.1 _ (Nat.pos_of_ne_zero hpos) (Nat.lt_of_not_le hafter)
          hheader
      subst hzero
      have heq := hk.symm.trans hfront
      have hsegment : (Segment.frame data).bytes ++ streamBytes segments =
          frameBytes data ++ streamBytes segments := rfl
      rw [List.drop_zero, hsegment, frameBytes_append] at heq
      simp only [frameHeader, List.cons_append, List.nil_append, List.cons.injEq, true_and] at heq
      obtain ⟨rfl, rfl, -⟩ := heq
      rw [lengthBytes_value hdamaged.1.most]
      have hmost := hdamaged.1.most
      omega
    | truncated data n =>
      have h := hdamaged.1
      have hopens (hshort : n < 6) : Opens (streamBytes segments) :=
        opens_of_head hundisguised.2.2 (hundisguised.1 hshort)
          fun _ _ hmem => hdamaged.2.nonempty hmem
      have hlength : (Segment.truncated data n).bytes.length = n := h.length
      rw [hlength] at hafter
      have hfour : k = 0 ∧ 4 ≤ n := by
        by_contra hnot
        exact header_in_truncated h hopens (Nat.lt_of_not_le hafter) (by omega) hheader
      obtain ⟨rfl, hfour⟩ := hfour
      have heq := hk.symm.trans hfront
      rw [List.drop_zero] at heq
      have hmost := h.plain.most
      rcases length_in_truncated h hfour hopens heq with ⟨-, hown⟩ | hlarge
      · omega
      · exact .inr hlarge

/-- However the stream is cut into chunks, the parser returns the states of its complete frames:
none is swallowed, and none is reported twice. -/
theorem frames_recovered (segments : List Segment) (hdamaged : Damaged segments)
    (hundisguised : Undisguised segments) (chunks : List (List UInt8))
    (hchunks : ∀ chunk ∈ chunks, chunk.length ≤ 256)
    (hstream : chunks.flatten = streamBytes segments) :
    reading.outputs (some .new) chunks = segments.filterMap Segment.reported := by
  have hdrained : Drained FrameParser.new.buf := ⟨rfl, .inl (Nat.zero_le _)⟩
  have hnew : Buffered (some .new) := ⟨.new, rfl, Nat.zero_le _, hdrained⟩
  have hmodest := damaged_modest hdamaged hundisguised
  rw [← hstream] at hmodest
  have hframes := frames_of_fits hnew (Modest.fits hdrained hchunks hmodest)
  have hscan := frames_damaged hdamaged hundisguised
  rw [← hstream] at hscan
  exact hframes.trans hscan

/-- A frame behind garbage and a truncated one. -/
theorem frames_recovered_desk :
    let data : List UInt8 := [2, 0xAA, 3, 0, 0, 0, 0, 0x55, 0]
    let segments : List Segment := [.garbage [1, 0xF4], .truncated data 11, .frame data]
    reading.outputs (some .new) [streamBytes segments] = [⟨3⟩] := by
  intro data segments
  have hplain : Plain data := ⟨by decide, by decide, by decide, by decide⟩
  have htruncates : Truncates data 11 [.frame data] := by
    refine ⟨hplain, by decide, by decide, fun data' hmem => ?_, fun _ => by decide⟩
    obtain rfl := Segment.frame.inj (List.mem_singleton.mp hmem)
    rfl
  refine frames_recovered segments ⟨by unfold Headerless; decide, htruncates, hplain, trivial⟩
    ⟨fun h => absurd h (by decide), by decide, trivial⟩ _ (by decide) ?_
  rw [List.flatten_singleton]

/-- Garbage behind a header is read as a length, and the next frame is swallowed; garbage behind
truncated data completes them, and a frame is reported that was never sent. -/
theorem garbage_completes_truncated :
    let data : List UInt8 := [2, 0xAA, 3]
    let swallowed : List Segment := [.truncated data 4, .garbage [9, 0], .frame data, .frame data]
    let reported : List Segment := [.truncated data 9, .garbage frameTail, .frame data]
    (Damaged swallowed ∧ swallowed.filterMap Segment.reported = [⟨3⟩, ⟨3⟩] ∧
        reading.outputs (some .new) [streamBytes swallowed] = [⟨3⟩]) ∧
      Damaged reported ∧ reported.filterMap Segment.reported = [⟨3⟩] ∧
        reading.outputs (some .new) [streamBytes reported] = [⟨3⟩, ⟨3⟩] := by
  intro data swallowed reported
  have hplain : Plain data := ⟨by decide, by decide, by decide, by decide⟩
  have hfirst : Truncates data 4 [.garbage [9, 0], .frame data, .frame data] := by
    refine ⟨hplain, by decide, by decide, fun data' hmem => ?_, fun h => absurd h (by decide)⟩
    have heq : data' = data := by simpa using hmem
    rw [heq]
  have hsecond : Truncates data 9 [.garbage frameTail, .frame data] := by
    refine ⟨hplain, by decide, by decide, fun data' hmem => ?_, fun _ => by decide⟩
    have heq : data' = data := by simpa using hmem
    rw [heq]
  exact ⟨⟨⟨hfirst, by unfold Headerless; decide, hplain, hplain, trivial⟩, by decide, by decide⟩,
    ⟨hsecond, by unfold Headerless; decide, hplain, trivial⟩, by decide, by decide⟩

end Dormant
