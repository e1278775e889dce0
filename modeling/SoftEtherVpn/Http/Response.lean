import SoftEtherVpn.Foundation.ChunkedStream

/-!
# Reading an HTTP response

`read_http_response` reads the headers byte by byte up to the first empty line, takes the
body size from the `Content-Length` header, and then reads exactly that many bytes behind
the headers. `softether_additional_connect` holds two more copies of the same reader for
its 4096-byte buffers. Integers are 32-bit two's complement; the size of `long`, which
bounds `atoi`, is a parameter.
-/

namespace SoftEtherVpn.Http

open Foundation

/-- The memory from the start of a buffer on, and the end of the highest index written. -/
structure Buffer where
  mem : Bytes
  high : ℕ

def Buffer.store (b : Buffer) (i : ℕ) (data : Bytes) : Buffer where
  mem := b.mem.take i ++ data ++ b.mem.drop (i + data.length)
  high := max b.high (i + data.length)

/-- The C string at the start of a memory. -/
def cString (mem : Bytes) : Bytes := mem.takeWhile (· ≠ 0)

/-- `strstr`: the rest of the string from the first occurrence on. -/
def strstr (s pat : Bytes) : Option Bytes :=
  if pat.isPrefixOf s then some s
  else
    match s with
    | [] => none
    | _ :: s => strstr s pat

def isSpace (b : UInt8) : Bool := b = 32 || (9 ≤ b && b ≤ 13)

def isDigit (b : UInt8) : Bool := 48 ≤ b && b ≤ 57

def digitsValue (s : Bytes) : ℕ :=
  (s.takeWhile isDigit).foldl (fun acc b => 10 * acc + (b.toNat - 48)) 0

/-- `strtol` in base ten, which saturates at the bounds of `long`. -/
def strtol (longBits : ℕ) (s : Bytes) : ℤ :=
  let value : ℤ :=
    match s.dropWhile isSpace with
    | 45 :: s => -(digitsValue s : ℤ)
    | 43 :: s => digitsValue s
    | s => digitsValue s
  max (-(2 ^ (longBits - 1))) (min value (2 ^ (longBits - 1) - 1))

def atoi (longBits : ℕ) (s : Bytes) : ℤ := int32 (strtol longBits s)

/-- `content_length`, an unsigned 32-bit value. -/
def contentLength (longBits : ℕ) (text : Bytes) : ℕ :=
  match (strstr text (ascii "Content-Length: ")).or (strstr text (ascii "content-length: ")) with
  | none => 0
  | some cl => (atoi longBits (cl.drop 16) % 2 ^ 32).toNat

/-- The bytes before index `n` end with an empty line. -/
def foundEnd (mem : Bytes) (n : ℕ) : Prop :=
  4 ≤ n ∧ mem[n - 4]? = some 13 ∧ mem[n - 3]? = some 10 ∧
    mem[n - 2]? = some 13 ∧ mem[n - 1]? = some 10

instance (mem : Bytes) (n : ℕ) : Decidable (foundEnd mem n) :=
  inferInstanceAs (Decidable (_ ∧ _))

/-- Where a reading loop ended. -/
structure LoopEnd where
  ok : Bool
  pos : ℕ
  stream : ChunkedStream
  buf : Buffer

/-- The header loop, with `room` more bytes to go before `buf_size - 1`. -/
def headerLoop (stream : ChunkedStream) (buf : Buffer) (hdrLen : ℕ) : ℕ → LoopEnd
  | 0 => ⟨false, hdrLen, stream, buf⟩
  | room + 1 =>
    match stream.read 1 with
    | none => ⟨false, hdrLen, stream, buf⟩
    | some (d, stream) =>
      let buf := buf.store hdrLen d
      if foundEnd buf.mem (hdrLen + 1) then ⟨true, hdrLen + 1, stream, buf⟩
      else headerLoop stream buf (hdrLen + 1) room

/-- The body loop: each round asks for all that is left. -/
def bodyLoop (hdrLen contentLength : ℕ) (stream : ChunkedStream) (buf : Buffer)
    (bodyRead : ℕ) : LoopEnd :=
  if contentLength ≤ bodyRead then ⟨true, bodyRead, stream, buf⟩
  else
    match _h : stream.read (int32 (contentLength - bodyRead)) with
    | none => ⟨false, bodyRead, stream, buf⟩
    | some (d, stream') =>
      bodyLoop hdrLen contentLength stream' (buf.store (hdrLen + bodyRead) d)
        (bodyRead + d.length)
termination_by stream.chunks.length
decreasing_by exact ChunkedStream.read_chunks_length _h

/-- What a reader returns, and what it has done to the stream and to its buffer. -/
structure Outcome where
  ret : ℤ
  bodyLen : ℤ
  stream : ChunkedStream
  buf : Buffer

def LoopEnd.failed (e : LoopEnd) : Outcome := ⟨-1, 0, e.stream, e.buf⟩

def readHttpResponse (longBits bufSize : ℕ) (stream : ChunkedStream) (mem : Bytes) : Outcome :=
  let hdr := headerLoop stream ⟨mem, 0⟩ 0 (bufSize - 1)
  if ¬ hdr.ok then hdr.failed
  else
    let buf := hdr.buf.store hdr.pos [0]
    let length := contentLength longBits (cString buf.mem)
    if 0 < length then
      if int32 (hdr.pos + int32 length) > bufSize then ⟨-1, 0, hdr.stream, buf⟩
      else
        let body := bodyLoop hdr.pos length hdr.stream buf 0
        if ¬ body.ok then body.failed
        else ⟨int32 (hdr.pos + int32 length), int32 length, body.stream, body.buf⟩
    else ⟨hdr.pos, 0, hdr.stream, buf⟩

/-- The size of both buffers of `softether_additional_connect`. -/
def respSize : ℕ := 4096

/-- The reader as `softether_additional_connect` has it: a body that does not pass the
size check is left in the stream. The first copy does not terminate the headers. -/
def additionalResponse (terminate : Bool) (longBits : ℕ) (stream : ChunkedStream)
    (mem : Bytes) : Outcome :=
  let hdr := headerLoop stream ⟨mem, 0⟩ 0 (respSize - 1)
  if ¬ hdr.ok then hdr.failed
  else
    let buf := if terminate then hdr.buf.store hdr.pos [0] else hdr.buf
    let length := contentLength longBits (cString buf.mem)
    if 0 < length ∧ int32 (hdr.pos + int32 length) < respSize then
      let body := bodyLoop hdr.pos length hdr.stream buf 0
      if ¬ body.ok then body.failed
      else ⟨0, int32 length, body.stream, body.buf⟩
    else ⟨0, 0, hdr.stream, buf⟩

def connectCgiResponse : ℕ → ChunkedStream → Bytes → Outcome := additionalResponse false

def authResponse : ℕ → ChunkedStream → Bytes → Outcome := additionalResponse true

/-! ## What the readers should do -/

/-- The empty line that ends the headers. -/
def crlf2 : Bytes := [13, 10, 13, 10]

/-- A header block: it ends with the first empty line in it. -/
def HeaderBlock (hdr : Bytes) : Prop :=
  crlf2 <:+ hdr ∧ ∀ p, p <+: hdr → crlf2 <:+ p → p = hdr

/-- The response stays in the buffer, and unless the call fails it is consumed exactly. -/
structure InStep (longBits bufSize : ℕ) (s : ChunkedStream) (o : Outcome) : Prop where
  bounded : o.buf.high ≤ bufSize
  consumed : o.ret = -1 ∨ ∃ hdr body, s.bytes = hdr ++ body ++ o.stream.bytes ∧
    HeaderBlock hdr ∧ body.length = contentLength longBits (cString hdr)

/-- The header block `hdr` fits before index `bufSize - 1` and arrives byte by byte. -/
structure HeaderArrives (bufSize : ℕ) (s : ChunkedStream) (hdr : Bytes) : Prop where
  here : hdr <+: s.bytes
  fits : hdr.length ≤ bufSize - 1
  block : HeaderBlock hdr
  enough : hdr.length ≤ s.chunks.length
  steady : ∀ c ∈ s.chunks.take hdr.length, c ≠ 0

/-- The announced size passes the size check only because the sum with the header size
overflows, and more body bytes arrive than there is room for. -/
def Overruns (longBits bufSize : ℕ) (text : Bytes → Bytes) (s : ChunkedStream) : Prop :=
  ∃ hdr, HeaderArrives bufSize s hdr ∧
    contentLength longBits (text hdr) < 2 ^ 31 ∧
    2 ^ 31 ≤ hdr.length + contentLength longBits (text hdr) ∧
    bufSize < hdr.length +
      ChunkedStream.available (s.bytes.drop hdr.length) (s.chunks.drop hdr.length)

/-! ## The header loop -/

/-- A buffer over the memory `mem` into which exactly `data` has been written. -/
def written (mem data : Bytes) : Buffer := ⟨data ++ mem.drop data.length, data.length⟩

theorem written_store (mem data more : Bytes) :
    (written mem data).store data.length more = written mem (data ++ more) := by
  have hdrop : (data ++ mem.drop data.length).drop (data.length + more.length) =
      mem.drop (data ++ more).length := by
    rw [← List.drop_drop, List.drop_left, List.drop_drop, List.length_append]
  simp only [written, Buffer.store, List.take_left, hdrop, List.length_append]
  congr 1
  omega

theorem getElem?_of_suffix {a b c d : UInt8} {front : Bytes} :
    let mem := front ++ [a, b, c, d]
    mem[mem.length - 4]? = some a ∧ mem[mem.length - 3]? = some b ∧
      mem[mem.length - 2]? = some c ∧ mem[mem.length - 1]? = some d := by
  simp

/-- The test of the loop looks at the last four bytes written. -/
theorem foundEnd_written (mem data : Bytes) :
    foundEnd (written mem data).mem data.length ↔ crlf2 <:+ data := by
  have hget : ∀ k, 1 ≤ k → 4 ≤ data.length →
      (written mem data).mem[data.length - k]? = data[data.length - k]? := by
    intro k hk h4
    exact List.getElem?_append_left (by omega)
  constructor
  · rintro ⟨h4, h0, h1, h2, h3⟩
    rw [hget 4 (by omega) h4] at h0
    rw [hget 3 (by omega) h4] at h1
    rw [hget 2 (by omega) h4] at h2
    rw [hget 1 (by omega) h4] at h3
    refine ⟨data.take (data.length - 4), ?_⟩
    have hdrop : data.drop (data.length - 4) = crlf2 := by
      apply List.ext_getElem?
      intro k
      rw [List.getElem?_drop]
      match k with
      | 0 => simpa [crlf2] using h0
      | 1 => rw [show data.length - 4 + 1 = data.length - 3 by omega]; simpa [crlf2] using h1
      | 2 => rw [show data.length - 4 + 2 = data.length - 2 by omega]; simpa [crlf2] using h2
      | 3 => rw [show data.length - 4 + 3 = data.length - 1 by omega]; simpa [crlf2] using h3
      | k + 4 =>
        rw [List.getElem?_eq_none (by omega)]
        rfl
    rw [← hdrop, List.take_append_drop]
  · rintro ⟨front, rfl⟩
    have h4 : 4 ≤ (front ++ crlf2).length := by simp [crlf2]
    obtain ⟨h0, h1, h2, h3⟩ := @getElem?_of_suffix 13 10 13 10 front
    refine ⟨h4, ?_, ?_, ?_, ?_⟩
    · rw [hget 4 (by omega) h4]
      exact h0
    · rw [hget 3 (by omega) h4]
      exact h1
    · rw [hget 2 (by omega) h4]
      exact h2
    · rw [hget 1 (by omega) h4]
      exact h3

theorem read_one_eq_some {s s' : ChunkedStream} {d : Bytes} (h : s.read 1 = some (d, s')) :
    ∃ x c, d = [x] ∧ s.bytes = x :: s'.bytes ∧ s.chunks = c :: s'.chunks ∧ c ≠ 0 := by
  obtain ⟨h1, hle, hbytes, c, hc, hdc⟩ := ChunkedStream.read_eq_some h
  obtain ⟨x, rfl⟩ : ∃ x, d = [x] := List.length_eq_one_iff.mp (by omega)
  exact ⟨x, c, rfl, hbytes, hc, by omega⟩

theorem read_one_eq_none {s : ChunkedStream} {x : UInt8} {c : ℕ} {bs : Bytes} {cs : List ℕ}
    (hb : s.bytes = x :: bs) (hc : s.chunks = c :: cs) (h : s.read 1 = none) : c = 0 := by
  simp only [ChunkedStream.read, hc, hb] at h
  split_ifs at h with hm
  simp at hm
  exact hm

/-- `d` completes the headers of which `pre` has been read, within `room` bytes. -/
structure Completes (pre : Bytes) (s : ChunkedStream) (room : ℕ) (d : Bytes) : Prop where
  here : d <+: s.bytes
  fits : d.length ≤ room
  block : HeaderBlock (pre ++ d)
  enough : d.length ≤ s.chunks.length
  steady : ∀ c ∈ s.chunks.take d.length, c ≠ 0

/-- No empty line yet. -/
def Unfinished (pre : Bytes) : Prop := ∀ p, p <+: pre → ¬ crlf2 <:+ p

theorem Completes.ne_nil {pre d : Bytes} {s : ChunkedStream} {room : ℕ}
    (h : Completes pre s room d) (hpre : Unfinished pre) : d ≠ [] := by
  rintro rfl
  have hblock := h.block
  rw [List.append_nil] at hblock
  exact hpre pre (List.prefix_refl _) hblock.1

theorem Completes.cons {pre d : Bytes} {s s' : ChunkedStream} {room c : ℕ} {x : UInt8}
    (h : Completes (pre ++ [x]) s' room d) (hbytes : s.bytes = x :: s'.bytes)
    (hchunks : s.chunks = c :: s'.chunks) (hc : c ≠ 0) : Completes pre s (room + 1) (x :: d) where
  here := by
    rw [hbytes, List.cons_prefix_cons]
    exact ⟨rfl, h.here⟩
  fits := by simpa using h.fits
  block := by simpa using h.block
  enough := by simpa [hchunks] using h.enough
  steady := by
    rw [hchunks, List.length_cons, List.take_succ_cons]
    intro k hk
    rcases List.mem_cons.mp hk with rfl | hk
    · exact hc
    · exact h.steady k hk

theorem Completes.tail {pre d : Bytes} {s s' : ChunkedStream} {room c : ℕ} {x : UInt8}
    (h : Completes pre s (room + 1) (x :: d)) (hbytes : s.bytes = x :: s'.bytes)
    (hchunks : s.chunks = c :: s'.chunks) : Completes (pre ++ [x]) s' room d where
  here := by
    have hhere := h.here
    rw [hbytes, List.cons_prefix_cons] at hhere
    exact hhere.2
  fits := by simpa using h.fits
  block := by simpa using h.block
  enough := by simpa [hchunks] using h.enough
  steady := by
    have hsteady := h.steady
    rw [hchunks, List.length_cons, List.take_succ_cons] at hsteady
    exact fun k hk => hsteady k (List.mem_cons_of_mem _ hk)

theorem Unfinished.concat {pre : Bytes} {x : UInt8} (h : Unfinished pre)
    (hx : ¬ crlf2 <:+ pre ++ [x]) : Unfinished (pre ++ [x]) := by
  intro p hp hsuf
  rcases List.prefix_concat_iff.mp (by simpa using hp) with rfl | hp
  · exact hx (by simpa using hsuf)
  · exact h p hp hsuf

theorem Unfinished.headerBlock {pre : Bytes} {x : UInt8} (h : Unfinished pre)
    (hx : crlf2 <:+ pre ++ [x]) : HeaderBlock (pre ++ [x]) := by
  refine ⟨hx, ?_⟩
  intro p hp hsuf
  rcases List.prefix_concat_iff.mp (by simpa using hp) with rfl | hp
  · simp
  · exact absurd hsuf (h p hp)

/-- The loop succeeds exactly when the headers can be completed. -/
theorem headerLoop_spec (mem : Bytes) (room : ℕ) :
    ∀ (pre : Bytes) (s : ChunkedStream), Unfinished pre →
      let r := headerLoop s (written mem pre) pre.length room
      (r.ok = true → ∃ d, Completes pre s room d ∧
        r = ⟨true, (pre ++ d).length, ⟨s.bytes.drop d.length, s.chunks.drop d.length⟩,
          written mem (pre ++ d)⟩) ∧
      (r.ok = false → r.buf.high ≤ pre.length + room ∧ ∀ d, ¬ Completes pre s room d) := by
  induction room with
  | zero =>
    intro pre s hpre
    refine ⟨by simp [headerLoop], fun _ => ⟨le_rfl, ?_⟩⟩
    intro d hd
    have hnil : d = [] := List.length_eq_zero_iff.mp (Nat.le_zero.mp hd.fits)
    exact hd.ne_nil hpre hnil
  | succ room ih =>
    intro pre s hpre
    simp only [headerLoop]
    cases hread : s.read 1 with
    | none =>
      refine ⟨by simp, fun _ => ⟨Nat.le_add_right _ _, ?_⟩⟩
      intro d hd
      obtain ⟨x, d, rfl⟩ := List.exists_cons_of_ne_nil (hd.ne_nil hpre)
      obtain ⟨rest, hrest⟩ := hd.here
      cases hc : s.chunks with
      | nil =>
        have := hd.enough
        simp [hc] at this
      | cons c cs =>
        have hzero := read_one_eq_none hrest.symm hc hread
        exact hd.steady c (by simp [hc]) hzero
    | some r =>
      obtain ⟨data, s'⟩ := r
      obtain ⟨x, c, rfl, hbytes, hchunks, hc⟩ := read_one_eq_some hread
      have hlen : (pre ++ [x]).length = pre.length + 1 := by simp
      dsimp only
      rw [written_store, ← hlen]
      by_cases hfound : crlf2 <:+ pre ++ [x]
      · rw [if_pos ((foundEnd_written mem _).mpr hfound)]
        refine ⟨fun _ => ⟨[x], ?_, ?_⟩, by simp⟩
        · exact ⟨by simp [hbytes], by simp, hpre.headerBlock hfound, by simp [hchunks],
            by simpa [hchunks] using hc⟩
        · simp [hbytes, hchunks]
      · rw [if_neg (fun h => hfound ((foundEnd_written mem _).mp h))]
        obtain ⟨hok, hfail⟩ := ih (pre ++ [x]) s' (hpre.concat hfound)
        refine ⟨fun h => ?_, fun h => ⟨?_, ?_⟩⟩
        · obtain ⟨d, hd, heq⟩ := hok h
          refine ⟨x :: d, hd.cons hbytes hchunks hc, ?_⟩
          rw [heq]
          simp [hbytes, hchunks]
        · exact (hfail h).1.trans (by omega)
        · intro d hd
          obtain ⟨y, d, rfl⟩ := List.exists_cons_of_ne_nil (hd.ne_nil hpre)
          have hhere := hd.here
          rw [hbytes, List.cons_prefix_cons] at hhere
          obtain rfl := hhere.1
          exact (hfail h).2 d (hd.tail hbytes hchunks)

theorem headerBlock_of_take {hdr : Bytes} (h : crlf2 <:+ hdr)
    (hfirst : ∀ k < hdr.length, ¬ crlf2 <:+ hdr.take k) : HeaderBlock hdr := by
  refine ⟨h, ?_⟩
  intro p hp hsuf
  have htake : p = hdr.take p.length := List.prefix_iff_eq_take.mp hp
  by_contra hne
  have hlt : p.length < hdr.length := by
    apply lt_of_le_of_ne hp.length_le
    intro hlen
    exact hne (hp.eq_of_length hlen)
  rw [htake] at hsuf
  exact hfirst p.length hlt hsuf

theorem headerBlock_unique {hdr hdr' bytes : Bytes} (h : HeaderBlock hdr) (h' : HeaderBlock hdr')
    (hp : hdr <+: bytes) (hp' : hdr' <+: bytes) : hdr = hdr' := by
  rcases List.prefix_or_prefix_of_prefix hp hp' with hle | hle
  · exact h'.2 hdr hle h.1
  · exact (h.2 hdr' hle h'.1).symm

/-- The headers from the start of a buffer: the loop ends with the header block, or it
fails inside the buffer. -/
theorem headerLoop_cases (bufSize : ℕ) (s : ChunkedStream) (mem : Bytes) :
    (∃ hdr, HeaderArrives bufSize s hdr ∧ headerLoop s ⟨mem, 0⟩ 0 (bufSize - 1) =
      ⟨true, hdr.length, ⟨s.bytes.drop hdr.length, s.chunks.drop hdr.length⟩, written mem hdr⟩) ∨
    ((headerLoop s ⟨mem, 0⟩ 0 (bufSize - 1)).ok = false ∧
      (headerLoop s ⟨mem, 0⟩ 0 (bufSize - 1)).buf.high ≤ bufSize ∧
      ∀ hdr, ¬ HeaderArrives bufSize s hdr) := by
  have hstart : Unfinished [] := by
    intro p hp hsuf
    rw [List.prefix_nil.mp hp] at hsuf
    simp [crlf2] at hsuf
  obtain ⟨hok, hfail⟩ := headerLoop_spec mem (bufSize - 1) [] s hstart
  cases hres : (headerLoop s ⟨mem, 0⟩ 0 (bufSize - 1)).ok with
  | true =>
    obtain ⟨d, hd, heq⟩ := hok hres
    exact Or.inl ⟨d, ⟨hd.here, hd.fits, hd.block, hd.enough, hd.steady⟩, heq⟩
  | false =>
    obtain ⟨hhigh, hnone⟩ := hfail hres
    refine Or.inr ⟨rfl, hhigh.trans (by simp), ?_⟩
    intro hdr h
    exact hnone hdr ⟨h.here, h.fits, h.block, h.enough, h.steady⟩

/-! ## The body loop -/

theorem contentLength_lt (longBits : ℕ) (text : Bytes) : contentLength longBits text < 2 ^ 32 := by
  unfold contentLength
  split
  · norm_num
  · omega

theorem store_high (b : Buffer) (i : ℕ) (data : Bytes) :
    (b.store i data).high = max b.high (i + data.length) := rfl

/-- A size that fits an `int`: the loop takes what is available, up to that size. -/
theorem bodyLoop_spec (hdrLen length : ℕ) (hlen : length < 2 ^ 31) (s : ChunkedStream)
    (buf : Buffer) (bodyRead : ℕ) (hread : bodyRead ≤ length)
    (hhigh : hdrLen + bodyRead ≤ buf.high) :
    let r := bodyLoop hdrLen length s buf bodyRead
    let avail := ChunkedStream.available s.bytes s.chunks
    r.buf.high = max buf.high (hdrLen + min length (bodyRead + avail)) ∧
      (r.ok = true → ∃ d, s.bytes = d ++ r.stream.bytes ∧ d.length = length - bodyRead) := by
  intro r avail
  unfold r avail
  clear r avail
  fun_induction bodyLoop hdrLen length s buf bodyRead with
  | case1 s buf bodyRead hdone =>
    refine ⟨?_, fun _ => ⟨[], by simp, by simp; omega⟩⟩
    dsimp only
    omega
  | case2 s buf bodyRead hmore hnone =>
    rw [int32_of_lt (by omega) (by omega)] at hnone
    have havail := ChunkedStream.available_of_read_none (by omega) hnone
    refine ⟨?_, by simp⟩
    dsimp only
    omega
  | case3 s buf bodyRead hmore d s' hsome ih =>
    rw [int32_of_lt (by omega) (by omega)] at hsome
    obtain ⟨h1, hle, hbytes, -⟩ := ChunkedStream.read_eq_some hsome
    obtain ⟨hhi, hok⟩ := ih (by omega) (by rw [store_high]; omega)
    constructor
    · rw [hhi, store_high]
      rcases ChunkedStream.available_of_read hsome with ⟨hall, hge⟩ | havail
      · omega
      · omega
    · intro h
      obtain ⟨rest, hrest, hlen'⟩ := hok h
      refine ⟨d ++ rest, ?_, ?_⟩
      · rw [hbytes, hrest, List.append_assoc]
      · rw [List.length_append]
        omega

/-- A larger size is negative as an `int`: the first read fails. -/
theorem bodyLoop_of_ge {hdrLen length : ℕ} (hge : 2 ^ 31 ≤ length) (hlt : length < 2 ^ 32)
    (s : ChunkedStream) (buf : Buffer) :
    bodyLoop hdrLen length s buf 0 = ⟨false, 0, s, buf⟩ := by
  have hneg : int32 ((length : ℤ) - (0 : ℕ)) ≤ 0 := by
    rw [int32_of_ge (by omega) (by omega)]
    omega
  rw [bodyLoop, if_neg (by omega)]
  split
  · rfl
  · rename_i d s' hsome
    rw [ChunkedStream.read_nonpos hneg] at hsome
    cases hsome

/-- A body that passed the size check stays in the buffer unless the check overflowed
and too much arrived. -/
theorem bodyLoop_high_le_iff {hdrLen length bufSize : ℕ} (hfit : hdrLen < bufSize)
    (hint : bufSize < 2 ^ 31) (hlen : length < 2 ^ 32) (s : ChunkedStream) {buf : Buffer}
    (hbuf : hdrLen ≤ buf.high) (hbuf' : buf.high ≤ bufSize)
    (hcheck : int32 (hdrLen + int32 length) ≤ bufSize) :
    (bodyLoop hdrLen length s buf 0).buf.high ≤ bufSize ↔
      ¬ (length < 2 ^ 31 ∧ 2 ^ 31 ≤ hdrLen + length ∧
        bufSize < hdrLen + ChunkedStream.available s.bytes s.chunks) := by
  rcases Nat.lt_or_ge length (2 ^ 31) with hsmall | hbig
  · obtain ⟨hhigh, -⟩ := bodyLoop_spec hdrLen length hsmall s buf 0 (Nat.zero_le _) hbuf
    rw [hhigh]
    rw [int32_of_lt (by omega) (by omega : (length : ℤ) < 2 ^ 31)] at hcheck
    rcases Nat.lt_or_ge (hdrLen + length) (2 ^ 31) with hsum | hover
    · rw [int32_of_lt (by omega) (by omega)] at hcheck
      constructor
      · intro _ h
        omega
      · intro _
        omega
    · omega
  · rw [bodyLoop_of_ge hbig hlen]
    constructor
    · intro _ h
      omega
    · intro _
      exact hbuf'

/-! ## The readers -/

theorem cString_terminated (hdr rest : Bytes) : cString (hdr ++ 0 :: rest) = cString hdr := by
  induction hdr with
  | nil => simp [cString]
  | cons b hdr ih =>
    unfold cString at ih ⊢
    rw [List.cons_append, List.takeWhile_cons, List.takeWhile_cons, ih]

/-- The headers with their terminator. -/
theorem terminated_mem (mem hdr : Bytes) :
    ((written mem hdr).store hdr.length [0]).mem = hdr ++ 0 :: mem.drop (hdr.length + 1) := by
  rw [written_store, written]
  simp

theorem terminated_high (mem hdr : Bytes) :
    ((written mem hdr).store hdr.length [0]).high = hdr.length + 1 := by
  rw [written_store, written]
  simp

/-- The condition, once the header block is known. -/
theorem HeaderArrives.overruns_iff {longBits bufSize : ℕ} {text : Bytes → Bytes}
    {s : ChunkedStream} {hdr : Bytes} (h : HeaderArrives bufSize s hdr) :
    Overruns longBits bufSize text s ↔
      contentLength longBits (text hdr) < 2 ^ 31 ∧
      2 ^ 31 ≤ hdr.length + contentLength longBits (text hdr) ∧
      bufSize < hdr.length +
        ChunkedStream.available (s.bytes.drop hdr.length) (s.chunks.drop hdr.length) := by
  constructor
  · rintro ⟨hdr', h', hlt, hover, havail⟩
    obtain rfl := headerBlock_unique h.block h'.block h.here h'.here
    exact ⟨hlt, hover, havail⟩
  · intro hcond
    exact ⟨hdr, h, hcond⟩

theorem not_overruns_of_not_arrives {longBits bufSize : ℕ} {text : Bytes → Bytes}
    {s : ChunkedStream} (h : ∀ hdr, ¬ HeaderArrives bufSize s hdr) :
    ¬ Overruns longBits bufSize text s := by
  rintro ⟨hdr, harr, -⟩
  exact h hdr harr

/-- A size that fails the check did not overflow. -/
theorem not_overflow_of_check {hdrLen length bufSize : ℕ} (hfit : hdrLen < 2 ^ 31)
    (h : (bufSize : ℤ) < int32 (hdrLen + int32 length)) :
    ¬ (length < 2 ^ 31 ∧ 2 ^ 31 ≤ hdrLen + length) := by
  rintro ⟨hlt, hge⟩
  rw [int32_of_lt (by omega) (by omega : (length : ℤ) < 2 ^ 31),
    int32_of_ge (by omega) (by omega)] at h
  omega

theorem readHttpResponse_high_le_iff (longBits bufSize : ℕ) (s : ChunkedStream) (mem : Bytes)
    (h8 : 8 ≤ bufSize) (hint : bufSize < 2 ^ 31) :
    (readHttpResponse longBits bufSize s mem).buf.high ≤ bufSize ↔
      ¬ Overruns longBits bufSize cString s := by
  rcases headerLoop_cases bufSize s mem with ⟨hdr, harr, hloop⟩ | ⟨hok, hhigh, hnone⟩
  · have hfits := harr.fits
    have hlen := contentLength_lt longBits (cString hdr)
    rw [harr.overruns_iff]
    simp only [readHttpResponse, hloop, not_true_eq_false, if_false, terminated_mem,
      cString_terminated]
    by_cases hpos : 0 < contentLength longBits (cString hdr)
    · rw [if_pos hpos]
      by_cases hcheck : int32 (hdr.length + int32 (contentLength longBits (cString hdr))) > bufSize
      · rw [if_pos hcheck]
        have hno := not_overflow_of_check (by omega) hcheck
        simp only [terminated_high]
        constructor
        · rintro - ⟨hlt, hge, -⟩
          exact hno ⟨hlt, hge⟩
        · intro _
          omega
      · rw [if_neg hcheck]
        have hhigh := terminated_high mem hdr
        have hlow : hdr.length ≤ ((written mem hdr).store hdr.length [0]).high := by omega
        have hiff := bodyLoop_high_le_iff (by omega) hint hlen
          ⟨s.bytes.drop hdr.length, s.chunks.drop hdr.length⟩ hlow (by omega)
          (not_lt.mp hcheck)
        rw [← hiff]
        split_ifs
        · rfl
        · rfl
    · rw [if_neg hpos]
      simp only [terminated_high]
      constructor
      · rintro - ⟨-, hge, -⟩
        omega
      · intro _
        omega
  · simp only [readHttpResponse, hok, LoopEnd.failed]
    constructor
    · intro _
      exact not_overruns_of_not_arrives hnone
    · intro _
      exact hhigh

/-- A call that does not fail has consumed the header block and the announced body. -/
theorem readHttpResponse_consumed (longBits bufSize : ℕ) (s : ChunkedStream) (mem : Bytes) :
    (readHttpResponse longBits bufSize s mem).ret = -1 ∨
      ∃ hdr body, s.bytes = hdr ++ body ++ (readHttpResponse longBits bufSize s mem).stream.bytes ∧
        HeaderBlock hdr ∧ body.length = contentLength longBits (cString hdr) := by
  rcases headerLoop_cases bufSize s mem with ⟨hdr, harr, hloop⟩ | ⟨hok, -, -⟩
  · have hsplit : hdr ++ s.bytes.drop hdr.length = s.bytes := by
      obtain ⟨rest, hrest⟩ := harr.here
      rw [← hrest, List.drop_left]
    simp only [readHttpResponse, hloop, not_true_eq_false, if_false, terminated_mem,
      cString_terminated]
    split_ifs with hpos hcheck hbody
    · exact Or.inl rfl
    · right
      rcases Nat.lt_or_ge (contentLength longBits (cString hdr)) (2 ^ 31) with hsmall | hbig
      · obtain ⟨-, hread⟩ := bodyLoop_spec hdr.length _ hsmall
          ⟨s.bytes.drop hdr.length, s.chunks.drop hdr.length⟩
          ((written mem hdr).store hdr.length [0]) 0 (Nat.zero_le _)
          (terminated_high mem hdr ▸ Nat.le_succ _)
        obtain ⟨d, hd, hlen⟩ := hread hbody
        refine ⟨hdr, d, ?_, harr.block, hlen⟩
        rw [List.append_assoc, ← hd, hsplit]
      · rw [bodyLoop_of_ge hbig (contentLength_lt _ _)] at hbody
        cases hbody
    · exact Or.inl rfl
    · right
      refine ⟨hdr, [], ?_, harr.block, ?_⟩
      · rw [List.append_nil, hsplit]
      · exact (Nat.eq_zero_of_not_pos hpos).symm
  · left
    simp [readHttpResponse, hok, LoopEnd.failed]

/-- The text the two copies search for the header: the first one runs on into whatever
the buffer held before. -/
def headerText (terminate : Bool) (mem hdr : Bytes) : Bytes :=
  if terminate then cString hdr else cString (hdr ++ mem.drop hdr.length)

theorem additionalResponse_high_le_iff (terminate : Bool) (longBits : ℕ) (s : ChunkedStream)
    (mem : Bytes) : (additionalResponse terminate longBits s mem).buf.high ≤ respSize ↔
      ¬ Overruns longBits respSize (headerText terminate mem) s := by
  rcases headerLoop_cases respSize s mem with ⟨hdr, harr, hloop⟩ | ⟨hok, hhigh, hnone⟩
  · have hfits := harr.fits
    have hsize : respSize = 4096 := rfl
    obtain ⟨buf, hbufEq⟩ : ∃ buf, buf =
        if terminate then (written mem hdr).store hdr.length [0] else written mem hdr := ⟨_, rfl⟩
    have htext : cString buf.mem = headerText terminate mem hdr := by
      rw [hbufEq, headerText]
      cases terminate with
      | false => rfl
      | true => exact (congrArg cString (terminated_mem mem hdr)).trans (cString_terminated _ _)
    have hbuf : hdr.length ≤ buf.high ∧ buf.high ≤ hdr.length + 1 := by
      rw [hbufEq]
      cases terminate with
      | false => exact ⟨le_rfl, Nat.le_succ _⟩
      | true => exact ⟨terminated_high mem hdr ▸ Nat.le_succ _, (terminated_high mem hdr).le⟩
    have hlen := contentLength_lt longBits (headerText terminate mem hdr)
    rw [harr.overruns_iff]
    simp only [additionalResponse, hloop, not_true_eq_false, if_false, ← hbufEq, htext]
    by_cases hcheck : 0 < contentLength longBits (headerText terminate mem hdr) ∧
        int32 (hdr.length + int32 (contentLength longBits (headerText terminate mem hdr))) <
          respSize
    · rw [if_pos hcheck]
      have hiff := bodyLoop_high_le_iff (by omega) (by decide) hlen
        ⟨s.bytes.drop hdr.length, s.chunks.drop hdr.length⟩ hbuf.1 (by omega) hcheck.2.le
      rw [← hiff]
      split_ifs
      · rfl
      · rfl
    · rw [if_neg hcheck]
      constructor
      · rintro - ⟨hlt, hge, -⟩
        apply hcheck
        refine ⟨by omega, ?_⟩
        rw [int32_of_lt (by omega) (by omega : (contentLength longBits _ : ℤ) < 2 ^ 31),
          int32_of_ge (by omega) (by omega)]
        omega
      · intro _
        dsimp only
        omega
  · simp only [additionalResponse, hok, LoopEnd.failed]
    constructor
    · intro _
      exact not_overruns_of_not_arrives hnone
    · intro _
      exact hhigh

/-- All three readers stay inside their buffers, and `read_http_response` in step with
the stream, exactly when no announced size overflows the size check and brings more
bytes than there is room for. -/
theorem responses_inStep_iff (longBits bufSize : ℕ) (s : ChunkedStream) (mem : Bytes)
    (h8 : 8 ≤ bufSize) (hint : bufSize < 2 ^ 31) :
    (InStep longBits bufSize s (readHttpResponse longBits bufSize s mem) ↔
      ¬ Overruns longBits bufSize cString s) ∧
    ((connectCgiResponse longBits s mem).buf.high ≤ respSize ↔
      ¬ Overruns longBits respSize (headerText false mem) s) ∧
    ((authResponse longBits s mem).buf.high ≤ respSize ↔
      ¬ Overruns longBits respSize (headerText true mem) s) := by
  refine ⟨?_, additionalResponse_high_le_iff false longBits s mem,
    additionalResponse_high_le_iff true longBits s mem⟩
  rw [← readHttpResponse_high_le_iff longBits bufSize s mem h8 hint]
  constructor
  · exact InStep.bounded
  · intro hhigh
    exact ⟨hhigh, readHttpResponse_consumed longBits bufSize s mem⟩

/-- A response without a body is read in step. -/
theorem responses_inStep_empty_line :
    InStep 64 8 ⟨[13, 10, 13, 10, 7], [1, 1, 1, 1, 1]⟩
      (readHttpResponse 64 8 ⟨[13, 10, 13, 10, 7], [1, 1, 1, 1, 1]⟩ []) := by
  refine ((responses_inStep_iff 64 8 ⟨[13, 10, 13, 10, 7], [1, 1, 1, 1, 1]⟩ [] (by decide)
    (by decide)).1).mpr ?_
  rintro ⟨hdr, harr, hlt, hge, -⟩
  have hlen := harr.fits
  obtain rfl : hdr = crlf2 := headerBlock_unique harr.block
    (headerBlock_of_take (List.suffix_refl _) (by decide)) harr.here ⟨[7], rfl⟩
  exact absurd hge (by decide)

/-- The response `Content-Length: 2147483647` with a few body bytes. -/
def hugeResponse : ChunkedStream where
  bytes := ascii "Content-Length: 2147483647\r\n\r\n" ++ [1, 2, 3, 4]
  chunks := List.replicate 31 4

/-- A 32-byte buffer: the sum of header size and announced size is negative, the check
passes, and the body is written behind the buffer. -/
theorem hugeResponse_overruns :
    ¬ InStep 64 32 hugeResponse (readHttpResponse 64 32 hugeResponse []) := by
  intro h
  have hover : Overruns 64 32 cString hugeResponse := by
    refine ⟨hugeResponse.bytes.take 30, ⟨List.take_prefix _ _, by decide,
      headerBlock_of_take (by decide) (by decide), by decide, by decide⟩, ?_, ?_, ?_⟩
    · decide
    · decide
    · decide
  exact (readHttpResponse_high_le_iff 64 32 hugeResponse [] (by decide) (by decide)).mp
    h.bounded hover

end SoftEtherVpn.Http
