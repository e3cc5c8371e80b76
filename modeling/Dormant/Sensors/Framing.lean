import Mathlib.Data.List.Infix
import Dormant.Foundations.Scanner
import Dormant.Sensors.Ld2410

/-!
# Frames do not depend on chunks

The parser reads what one scan of the stream finds, however the stream is cut, as long as the cap
drops nothing. The cap drops nothing unless a header announces almost as many bytes as it allows.
-/

namespace Dormant
set_option autoImplicit false

/-! ## The scan -/

/-- A look at what follows a header. -/
def lookFrame : List UInt8 → Look Ld2410Frame
  | low :: high :: data =>
    let len := low.toNat + 256 * high.toNat
    if len < 3 ∨ maxBufSize < len + 10 then .skip
    else if data.length < len + 4 then .wait
    else if (data.drop len).take 4 = frameTail then
      .take (len + 9) (if data[0]? = some 2 then data[2]?.map Ld2410Frame.mk else none)
    else .skip
  | _ => .wait

def lookHeader (bytes : List UInt8) : Look Ld2410Frame :=
  if bytes.length < 4 then .wait
  else if bytes.take 4 = frameHeader then lookFrame (bytes.drop 4)
  else .skip

theorem lookFrame_stable {bytes : List UInt8} (more : List UInt8) (h : lookFrame bytes ≠ .wait) :
    lookFrame (bytes ++ more) = lookFrame bytes := by
  match bytes with
  | [] => exact absurd rfl h
  | [_] => exact absurd rfl h
  | low :: high :: data =>
    rw [List.cons_append, List.cons_append]
    unfold lookFrame at *
    dsimp only at *
    generalize low.toNat + 256 * high.toNat = len at *
    by_cases hlen : len < 3 ∨ maxBufSize < len + 10
    · rw [if_pos hlen, if_pos hlen]
    rw [if_neg hlen] at h ⊢
    rw [if_neg hlen]
    by_cases hshort : data.length < len + 4
    · rw [if_pos hshort] at h
      exact absurd rfl h
    have hlong : ¬(data ++ more).length < len + 4 := by
      rw [List.length_append]
      omega
    have htail : ((data ++ more).drop len).take 4 = (data.drop len).take 4 := by
      rw [List.drop_append_of_le_length (by omega), List.take_append_of_le_length]
      rw [List.length_drop]
      omega
    rw [if_neg hshort, if_neg hlong, htail, List.getElem?_append_left (by omega),
      List.getElem?_append_left (by omega)]

theorem lookFrame_fits {bytes : List UInt8} {n : ℕ} {frame : Option Ld2410Frame}
    (h : lookFrame bytes = .take n frame) : n < bytes.length + 4 := by
  match bytes with
  | [] => cases h
  | [_] => cases h
  | low :: high :: data =>
    unfold lookFrame at h
    dsimp only at h
    generalize low.toNat + 256 * high.toNat = len at h
    split at h
    · cases h
    split at h
    · cases h
    split at h
    · cases h
      rw [List.length_cons, List.length_cons]
      omega
    · cases h

/-- The scan of a radar's stream for frames. -/
def radar : Scanner UInt8 Ld2410Frame where
  look := lookHeader
  fits := by
    intro bytes n frame h
    unfold lookHeader at h
    split at h
    · cases h
    split at h
    · have hfits := lookFrame_fits h
      rw [List.length_drop] at hfits
      omega
    · cases h
  stable := by
    intro bytes more h
    unfold lookHeader at *
    by_cases hshort : bytes.length < 4
    · rw [if_pos hshort] at h
      exact absurd rfl h
    have hlong : ¬(bytes ++ more).length < 4 := by
      rw [List.length_append]
      omega
    rw [if_neg hshort] at h ⊢
    rw [if_neg hlong, List.take_append_of_le_length (by omega),
      List.drop_append_of_le_length (by omega)]
    by_cases hheader : bytes.take 4 = frameHeader
    · rw [if_pos hheader] at h ⊢
      rw [if_pos hheader]
      exact lookFrame_stable more h
    · rw [if_neg hheader, if_neg hheader]

theorem look_short {bytes : List UInt8} (h : bytes.length < 4) : radar.look bytes = .wait :=
  if_pos h

theorem look_header (bytes : List UInt8) :
    radar.look (frameHeader ++ bytes) = lookFrame bytes := by
  have hlong : ¬(frameHeader ++ bytes).length < 4 := by
    rw [List.length_append]
    exact Nat.not_lt.mpr (Nat.le_add_right 4 _)
  have htake : (frameHeader ++ bytes).take 4 = frameHeader := rfl
  change lookHeader (frameHeader ++ bytes) = lookFrame bytes
  unfold lookHeader
  rw [if_neg hlong, if_pos htake]
  rfl

theorem look_other {bytes : List UInt8} (hlength : 4 ≤ bytes.length)
    (h : bytes.take 4 ≠ frameHeader) : radar.look bytes = .skip :=
  (if_neg (Nat.not_lt.mpr hlength)).trans (if_neg h)

/-! ## The passes of the loop -/

theorem findHeader_none {buf : List UInt8} (h : findHeader buf = none) (k : ℕ) :
    (buf.drop k).take 4 ≠ frameHeader := by
  induction buf generalizing k with
  | nil =>
    rw [List.drop_nil]
    decide
  | cons byte buf ih =>
    unfold findHeader at h
    split at h
    · cases h
    · rename_i hne
      cases k with
      | zero => exact hne
      | succ k => exact ih (Option.map_eq_none_iff.mp h) k

theorem findHeader_some {buf : List UInt8} {pos : ℕ} (h : findHeader buf = some pos) :
    (buf.drop pos).take 4 = frameHeader ∧ ∀ k < pos, (buf.drop k).take 4 ≠ frameHeader := by
  induction buf generalizing pos with
  | nil => cases h
  | cons byte buf ih =>
    unfold findHeader at h
    split at h
    · rename_i heq
      cases h
      exact ⟨heq, fun k hk => absurd hk (Nat.not_lt_zero k)⟩
    · rename_i hne
      obtain ⟨pos', hfound, rfl⟩ := Option.map_eq_some_iff.mp h
      obtain ⟨hheader, hbefore⟩ := ih hfound
      refine ⟨hheader, fun k hk => ?_⟩
      cases k with
      | zero => exact hne
      | succ k => exact hbefore k (Nat.lt_of_succ_lt_succ hk)

/-- What a look makes of the buffer. -/
def Pass.ofLook (buf : List UInt8) : Look Ld2410Frame → Pass
  | .wait => .stop buf
  | .skip => .again (buf.drop 1) none
  | .take n frame => .again (buf.drop (n + 1)) frame

/-- Each index is in range, and the pass does what the look says. -/
theorem parseFrame_header (bytes : List UInt8) :
    parseFrame (frameHeader ++ bytes) =
      some (Pass.ofLook (frameHeader ++ bytes) (lookFrame bytes)) := by
  have hdiscard : discardFirst (frameHeader ++ bytes) =
      some (.again ((frameHeader ++ bytes).drop 1) none) := by
    unfold discardFirst drain
    rw [if_pos]
    · rfl
    · exact Nat.succ_le_succ (Nat.zero_le _)
  match bytes with
  | [] => rfl
  | [_] => rfl
  | low :: high :: data =>
    have hlength : (frameHeader ++ low :: high :: data).length = data.length + 6 := rfl
    unfold parseFrame lookFrame
    rw [hlength, if_neg (by omega)]
    change Option.bind (some low) _ = _
    dsimp only [Option.bind_some]
    change Option.bind (some high) _ = _
    dsimp only [Option.bind_some]
    generalize low.toNat + 256 * high.toNat = len
    by_cases hsmall : len < 3
    · have hskips : len < 3 ∨ maxBufSize < len + 10 := .inl hsmall
      rw [if_pos hsmall, if_pos hskips]
      exact hdiscard
    have htotal : 4 + 2 + len + 4 = len + 10 := by omega
    rw [if_neg hsmall, htotal]
    by_cases hlarge : maxBufSize < len + 10
    · have hskips : len < 3 ∨ maxBufSize < len + 10 := .inr hlarge
      rw [if_pos hskips, if_pos hlarge]
      exact hdiscard
    have hreads : ¬(len < 3 ∨ maxBufSize < len + 10) := fun h => h.elim hsmall hlarge
    rw [if_neg hreads, if_neg hlarge]
    by_cases hshort : data.length < len + 4
    · have hwaits : data.length + 6 < len + 10 := by omega
      rw [if_pos hshort, if_pos hwaits]
      rfl
    have hwhole : len + 10 ≤ (frameHeader ++ low :: high :: data).length := by
      rw [hlength]
      omega
    have htail : fourBytes (4 + 2 + len) (frameHeader ++ low :: high :: data) =
        some ((data.drop len).take 4) := by
      unfold fourBytes
      rw [if_pos (by omega), Nat.add_comm (4 + 2) len]
      rfl
    have hfits : ¬data.length + 6 < len + 10 := by omega
    rw [if_neg hshort, if_neg hfits, htail, Option.bind_some]
    by_cases htailed : (data.drop len).take 4 = frameTail
    · obtain ⟨frameType, htype⟩ : ∃ byte, data[0]? = some byte :=
        ⟨_, List.getElem?_eq_getElem (by omega)⟩
      obtain ⟨targetState, hstate⟩ : ∃ byte, data[2]? = some byte :=
        ⟨_, List.getElem?_eq_getElem (by omega)⟩
      rw [if_pos htailed, if_pos htailed]
      change data[0]?.bind (fun frameType => data[2]?.bind fun targetState => _) = _
      rw [htype, hstate]
      unfold drain
      rw [if_pos hwhole]
      simp only [Option.bind_some, Option.map_some, Option.some.injEq]
      rfl
    · rw [if_neg htailed, if_neg htailed]
      exact hdiscard

/-- Nothing more can be read, and either there is little or it waits for more. -/
structure Drained (buf : List UInt8) : Prop where
  done : radar.frames buf = []
  small : buf.length ≤ maxBufSize / 2 ∨ radar.look buf = .wait

/-- The pass leaves what the scan has still to read. -/
def Pass.Reads (buf : List UInt8) : Pass → Prop
  | .stop rest => radar.Leaves buf [] rest ∧ rest <:+ buf ∧ Drained rest
  | .again rest frame =>
    radar.Leaves buf frame.toList rest ∧ rest <:+ buf ∧ rest.length < buf.length

theorem ofLook_reads (front : List UInt8) : (Pass.ofLook front (radar.look front)).Reads front := by
  cases hlook : radar.look front with
  | wait =>
    exact ⟨Scanner.Leaves.refl front, List.suffix_refl front, Scanner.frames_of_wait hlook,
      .inr hlook⟩
  | skip =>
    refine ⟨Scanner.leaves_skip hlook, List.drop_suffix _ _, ?_⟩
    have hlong : ¬front.length < 4 := by
      intro hshort
      rw [look_short hshort] at hlook
      cases hlook
    rw [List.length_drop]
    omega
  | take n frame =>
    refine ⟨Scanner.leaves_take hlook, List.drop_suffix _ _, ?_⟩
    have hfits := radar.fits hlook
    rw [List.length_drop]
    omega

theorem Pass.Reads.of_skips {buf front : List UInt8} {pass : Pass}
    (hskips : radar.Leaves buf [] front) (hsuffix : front <:+ buf) (h : pass.Reads front) :
    pass.Reads buf := by
  cases pass with
  | stop rest => exact ⟨hskips.trans h.1, h.2.1.trans hsuffix, h.2.2⟩
  | again rest frame =>
    exact ⟨hskips.trans h.1, h.2.1.trans hsuffix, Nat.lt_of_lt_of_le h.2.2 hsuffix.length_le⟩

/-- Without a header, every position is moved on from that has four bytes. -/
theorem leaves_headerless {buf : List UInt8} (h : ∀ k, (buf.drop k).take 4 ≠ frameHeader) (n : ℕ)
    (hn : n + 3 ≤ buf.length) : radar.Leaves buf [] (buf.drop n) := by
  refine Scanner.leaves_skips n fun k hk => look_other ?_ (h k)
  rw [List.length_drop]
  omega

theorem frames_headerless {buf : List UInt8} (h : ∀ k, (buf.drop k).take 4 ≠ frameHeader) :
    radar.frames buf = [] := by
  by_cases hshort : buf.length < 4
  · exact Scanner.frames_of_wait (look_short hshort)
  · have hskips := leaves_headerless h (buf.length - 3) (by omega)
    refine hskips.frames (Scanner.frames_of_wait (look_short ?_))
    rw [List.length_drop]
    omega

theorem parsePass_reads (buf : List UInt8) :
    ∃ pass, parsePass buf = some pass ∧ pass.Reads buf := by
  unfold parsePass
  cases hfound : findHeader buf with
  | none =>
    have hnone := findHeader_none hfound
    have hhalf : maxBufSize / 2 = 2048 := rfl
    dsimp only
    by_cases hlarge : buf.length > maxBufSize / 2
    · have hexcess : buf.length - maxBufSize / 2 ≤ buf.length := Nat.sub_le _ _
      have hrest (k : ℕ) :
          ((buf.drop (buf.length - maxBufSize / 2)).drop k).take 4 ≠ frameHeader := by
        rw [List.drop_drop]
        exact hnone _
      unfold drain
      rw [if_pos hlarge, if_pos hexcess]
      refine ⟨_, rfl, leaves_headerless hnone _ (by omega), List.drop_suffix _ _,
        frames_headerless hrest, .inl ?_⟩
      rw [List.length_drop]
      omega
    · rw [if_neg hlarge]
      exact ⟨_, rfl, Scanner.Leaves.refl buf, List.suffix_refl buf, frames_headerless hnone,
        .inl (Nat.not_lt.mp hlarge)⟩
  | some pos =>
    obtain ⟨hheader, hbefore⟩ := findHeader_some hfound
    have hlength : pos + 4 ≤ buf.length := by
      have htaken := congrArg List.length hheader
      rw [List.length_take, List.length_drop] at htaken
      have hfour : frameHeader.length = 4 := rfl
      omega
    have hskips : radar.Leaves buf [] (buf.drop pos) := by
      refine Scanner.leaves_skips pos fun k hk => look_other ?_ (hbefore k hk)
      rw [List.length_drop]
      omega
    have hfront : buf.drop pos = frameHeader ++ (buf.drop pos).drop 4 := by
      conv_lhs => rw [← List.take_append_drop 4 (buf.drop pos), hheader]
    have hparse : parseFrame (buf.drop pos) =
        some (Pass.ofLook (buf.drop pos) (radar.look (buf.drop pos))) := by
      rw [hfront, parseFrame_header, look_header]
    refine ⟨_, ?_, (ofLook_reads (buf.drop pos)).of_skips hskips (List.drop_suffix _ _)⟩
    dsimp only
    by_cases hpos : pos > 0
    · unfold drain
      rw [if_pos hpos, if_pos (by omega)]
      exact hparse
    · obtain rfl := Nat.eq_zero_of_not_pos hpos
      rw [if_neg hpos]
      exact hparse

/-! ## Pushes -/

/-- The loop ends with fuel left, and it finds what the scan finds. -/
theorem parseLoop_reads (fuel : ℕ) (buf : List UInt8) (h : buf.length < fuel) :
    ∃ rest found, parseLoop fuel buf = some (rest, found) ∧ radar.Leaves buf found rest ∧
      rest <:+ buf ∧ Drained rest := by
  induction fuel generalizing buf with
  | zero => exact absurd h (Nat.not_lt_zero _)
  | succ fuel ih =>
    obtain ⟨pass, hpass, hreads⟩ := parsePass_reads buf
    unfold parseLoop
    rw [hpass]
    cases pass with
    | stop rest => exact ⟨rest, [], rfl, hreads⟩
    | again next frame =>
      obtain ⟨hleaves, hsuffix, hless⟩ := hreads
      obtain ⟨rest, found, hloop, hrest, hsuffix', hdrained⟩ := ih next (by omega)
      refine ⟨rest, frame.toList ++ found, ?_, hleaves.trans hrest, hsuffix'.trans hsuffix,
        hdrained⟩
      dsimp only
      rw [hloop]
      rfl

/-- The newest bytes, as many as the cap allows. -/
def FrameParser.capped (p : FrameParser) (bytes : List UInt8) : List UInt8 :=
  (p.buf ++ bytes).drop ((p.buf ++ bytes).length - maxBufSize)

theorem extend_capped (p : FrameParser) (bytes : List UInt8) :
    p.extend bytes = some (p.capped bytes) := by
  unfold FrameParser.extend FrameParser.capped drain
  dsimp only
  by_cases hlarge : (p.buf ++ bytes).length > maxBufSize
  · rw [if_pos hlarge, if_pos (Nat.sub_le _ _)]
  · rw [if_neg hlarge, Nat.sub_eq_zero_of_le (Nat.not_lt.mp hlarge)]
    rfl

theorem capped_length (p : FrameParser) (bytes : List UInt8) :
    (p.capped bytes).length ≤ maxBufSize := by
  unfold FrameParser.capped
  rw [List.length_drop]
  omega

theorem capped_of_le {p : FrameParser} {bytes : List UInt8}
    (h : p.buf.length + bytes.length ≤ maxBufSize) : p.capped bytes = p.buf ++ bytes := by
  unfold FrameParser.capped
  rw [List.length_append, Nat.sub_eq_zero_of_le h]
  rfl

theorem push_reads (p : FrameParser) (bytes : List UInt8) :
    ∃ p' found, p.push bytes = some (p', found) ∧ radar.Leaves (p.capped bytes) found p'.buf ∧
      p'.buf <:+ p.capped bytes ∧ Drained p'.buf := by
  obtain ⟨rest, found, hloop, hreads⟩ :=
    parseLoop_reads ((p.capped bytes).length + 1) (p.capped bytes) (Nat.lt_succ_self _)
  refine ⟨⟨rest⟩, found, ?_, hreads⟩
  unfold FrameParser.push
  rw [extend_capped, Option.bind_some, hloop]
  rfl

theorem extend_nil {buf : List UInt8} (h : buf.length ≤ maxBufSize) :
    (FrameParser.mk buf).extend [] = some buf := by
  unfold FrameParser.extend
  dsimp only
  rw [List.append_nil, if_neg (Nat.not_lt.mpr h)]

/-- A push over the cap is a push of nothing to the newest bytes. -/
theorem push_capped (p : FrameParser) (bytes : List UInt8) :
    p.push bytes = (FrameParser.mk (p.capped bytes)).push [] := by
  unfold FrameParser.push
  rw [extend_capped, extend_nil (capped_length p bytes)]

/-! ## Streams -/

/-- The parser has not panicked, and its buffer is in bounds and drained. -/
def Buffered (parser : Option FrameParser) : Prop :=
  ∃ p, parser = some p ∧ p.buf.length ≤ maxBufSize ∧ Drained p.buf

theorem reading_next (p : FrameParser) (chunk : List UInt8) :
    ∃ p' found, reading.next (some p) chunk = (some p', found) ∧
      radar.Leaves (p.capped chunk) found p'.buf ∧ p'.buf <:+ p.capped chunk ∧
        Drained p'.buf := by
  obtain ⟨p', found, hpush, hreads⟩ := push_reads p chunk
  refine ⟨p', found, ?_, hreads⟩
  unfold reading
  dsimp only
  rw [Option.bind_some, hpush]

theorem buffered_next (parser : Option FrameParser) (chunk : List UInt8) (h : Buffered parser) :
    Buffered (reading.next parser chunk).1 := by
  obtain ⟨p, rfl, -, -⟩ := h
  obtain ⟨p', found, hnext, -, hsuffix, hdrained⟩ := reading_next p chunk
  rw [hnext]
  exact ⟨p', rfl, Nat.le_trans hsuffix.length_le (capped_length p chunk), hdrained⟩

/-- The bytes that the parser holds. -/
def heldBytes (parser : Option FrameParser) : List UInt8 := (parser.map FrameParser.buf).getD []

/-- The push drops no byte for the cap. -/
def HasRoom (parser : Option FrameParser) (chunk : List UInt8) : Prop :=
  ∃ p ∈ parser, p.buf.length + chunk.length ≤ maxBufSize

instance (parser : Option FrameParser) (chunk : List UInt8) : Decidable (HasRoom parser chunk) :=
  inferInstanceAs (Decidable (∃ p ∈ parser, _))

theorem frames_of_fits {p : FrameParser} {chunks : List (List UInt8)} (hp : Buffered (some p))
    (h : reading.Steps HasRoom (some p) chunks) :
    reading.outputs (some p) chunks = radar.frames (p.buf ++ chunks.flatten) := by
  have hreads : radar.Leaves (heldBytes (some p) ++ chunks.flatten)
      (reading.outputs (some p) chunks) (heldBytes (reading.run (some p) chunks)) := by
    refine Scanner.Leaves.run (fun parser chunk hfits => ?_) h
    obtain ⟨p, rfl, hle⟩ := hfits
    obtain ⟨p', found, hnext, hleaves, -, -⟩ := reading_next p chunk
    rw [hnext]
    rw [capped_of_le hle] at hleaves
    exact hleaves
  obtain ⟨p', hrun, -, hdrained⟩ := Runs.System.invariant buffered_next hp chunks
  rw [hrun] at hreads
  exact (hreads.frames hdrained.done).symm

/-- The most bytes that the read loop delivers at once. -/
def readBufSize : ℕ := 256

/-- The length of the frame that a header at the front announces. -/
def announced (bytes : List UInt8) : Option ℕ :=
  match bytes.drop 4 with
  | low :: high :: _ =>
    if bytes.take 4 = frameHeader then some (low.toNat + 256 * high.toNat + 10) else none
  | _ => none

/-- No header of the stream announces a frame that fits the cap, but not with another chunk. -/
def Modest (stream : List UInt8) : Prop :=
  ∀ bytes ∈ stream.tails, ∀ total ∈ announced bytes,
    total + readBufSize ≤ maxBufSize + 1 ∨ maxBufSize < total

instance (stream : List UInt8) : Decidable (Modest stream) :=
  inferInstanceAs (Decidable (∀ bytes ∈ stream.tails, _))

/-- A parser that waits in a modest stream has room for another chunk. -/
theorem Modest.room {stream buf : List UInt8} (h : Modest stream) (hdrained : Drained buf)
    (hstream : ∃ rest, buf ++ rest <:+ stream) : buf.length + readBufSize ≤ maxBufSize := by
  have hmax : maxBufSize = 4096 := rfl
  have hread : readBufSize = 256 := rfl
  obtain ⟨rest, hsuffix⟩ := hstream
  rcases hdrained.small with hsmall | hwait
  · omega
  change lookHeader buf = .wait at hwait
  unfold lookHeader at hwait
  split at hwait
  · omega
  rename_i hlong
  split at hwait
  · rename_i hheader
    have hlength : buf.length = (buf.drop 4).length + 4 := by
      rw [List.length_drop]
      omega
    have hannounced (low high : UInt8) (data : List UInt8)
        (hdata : buf.drop 4 = low :: high :: data) :
        announced (buf ++ rest) = some (low.toNat + 256 * high.toNat + 10) := by
      unfold announced
      rw [List.drop_append_of_le_length (by omega), List.take_append_of_le_length (by omega), hdata]
      exact if_pos hheader
    match hdata : buf.drop 4 with
    | [] =>
      rw [hdata, List.length_nil] at hlength
      omega
    | [_] =>
      rw [hdata, List.length_singleton] at hlength
      omega
    | low :: high :: data =>
      have hmodest := h _ ((List.mem_tails _ _).mpr hsuffix) _ (hannounced low high data hdata)
      rw [hdata] at hwait hlength
      unfold lookFrame at hwait
      dsimp only at hwait
      generalize low.toNat + 256 * high.toNat = len at *
      rw [List.length_cons, List.length_cons] at hlength
      split at hwait
      · cases hwait
      split at hwait
      · omega
      split at hwait <;> cases hwait
  · cases hwait

theorem Modest.fits {chunks : List (List UInt8)} {p : FrameParser}
    (hdrained : Drained p.buf) (hchunks : ∀ chunk ∈ chunks, chunk.length ≤ readBufSize)
    (h : Modest (p.buf ++ chunks.flatten)) : reading.Steps HasRoom (some p) chunks := by
  induction chunks generalizing p with
  | nil => trivial
  | cons chunk chunks ih =>
    have hchunk := hchunks chunk List.mem_cons_self
    have hroom := h.room hdrained ⟨_, List.suffix_refl _⟩
    have hle : p.buf.length + chunk.length ≤ maxBufSize := by omega
    obtain ⟨p', found, hnext, -, hsuffix, hdrained'⟩ := reading_next p chunk
    refine ⟨⟨p, rfl, hle⟩, ?_⟩
    rw [hnext]
    refine ih hdrained' (fun c hc => hchunks c (List.mem_cons_of_mem _ hc)) ?_
    intro bytes hbytes
    refine h bytes ((List.mem_tails _ _).mpr (((List.mem_tails _ _).mp hbytes).trans ?_))
    obtain ⟨dropped, hdropped⟩ := hsuffix
    rw [capped_of_le hle] at hdropped
    refine ⟨dropped, ?_⟩
    rw [← List.append_assoc, hdropped, List.flatten_cons, List.append_assoc]

/-- The frames are those of one scan as long as the cap drops nothing, which it does not in a modest
stream. Where it does, the parser goes on with the newest bytes. -/
theorem framing_independent_of_chunks :
    (∀ before : List (List UInt8), ∃ p, reading.run (some .new) before = some p ∧
      p.buf.length ≤ maxBufSize ∧
      ∀ chunks : List (List UInt8), reading.Steps HasRoom (some p) chunks →
        reading.outputs (some p) chunks = radar.frames (p.buf ++ chunks.flatten)) ∧
    (∀ chunks : List (List UInt8), (∀ chunk ∈ chunks, chunk.length ≤ readBufSize) →
      Modest chunks.flatten →
        reading.outputs (some .new) chunks = radar.frames chunks.flatten) ∧
    ∀ (p : FrameParser) (bytes : List UInt8),
      p.push bytes = (FrameParser.mk (p.capped bytes)).push [] := by
  have hdrained : Drained FrameParser.new.buf := ⟨rfl, .inl (Nat.zero_le _)⟩
  have hnew : Buffered (some .new) := ⟨.new, rfl, Nat.zero_le _, hdrained⟩
  refine ⟨fun before => ?_, fun chunks hchunks hmodest => ?_, push_capped⟩
  · obtain ⟨p, hrun, hlength, hp⟩ := Runs.System.invariant buffered_next hnew before
    exact ⟨p, hrun, hlength, fun chunks => frames_of_fits ⟨p, rfl, hlength, hp⟩⟩
  · exact frames_of_fits hnew (Modest.fits hdrained hchunks hmodest)

/-! ## A frame of the length of the cap -/

/-- All but the last byte of a frame of 4096 bytes, and then that one with another. The data of the
frame starts with another header. -/
def longChunks : List (List UInt8) :=
  (frameHeader ++ [0xF6, 0x0F, 2, 0xAA, 1] ++ frameHeader ++ [0xF6, 0x0F] ++
    List.replicate 241 0) ::
    List.replicate 14 (List.replicate 256 0) ++
      [List.replicate 252 0 ++ [0xF8, 0xF7, 0xF6], [0xF5, 0]]

/-- The last push drops the first byte of the header, and the frame is lost. -/
theorem long_frame_lost :
    (∀ chunk ∈ longChunks, chunk.length ≤ readBufSize) ∧
      radar.frames longChunks.flatten = [⟨1⟩] ∧
        reading.outputs (some .new) longChunks = [] := by
  refine ⟨?_, ?_, ?_⟩
  · decide +kernel
  · decide +kernel
  · decide +kernel

/-- A frame is cut in two, after a first one that is cut in two as well. -/
theorem framing_independent_of_chunks_desk :
    let frame : List UInt8 :=
      frameHeader ++ [9, 0, 2, 0xAA, 3, 0, 0, 0, 0, 0x55, 0] ++ frameTail
    let chunks := [frame.take 10, frame.drop 10 ++ frame.take 5, frame.drop 5]
    reading.outputs (some .new) chunks = radar.frames (frame ++ frame) ∧
      reading.outputs (reading.run (some .new) [frame.take 10]) [frame.drop 10] =
        radar.frames frame := by
  intro frame chunks
  obtain ⟨hfits, hmodest, -⟩ := framing_independent_of_chunks
  refine ⟨hmodest chunks (by decide +kernel) (by decide +kernel), ?_⟩
  obtain ⟨p, hrun, -, hframes⟩ := hfits [frame.take 10]
  have hheld : some p = some (FrameParser.mk (frame.take 10)) := by
    rw [← hrun]
    decide +kernel
  obtain rfl := Option.some.inj hheld
  rw [hrun]
  exact hframes [frame.drop 10] (by decide +kernel)

end Dormant
