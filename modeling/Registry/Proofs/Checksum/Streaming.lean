import Registry.Checksum.Reading

/-!
# Streaming — the digest of a message in pieces

However a message is cut into pieces, the chain of a context has been changed by the whole blocks of
what was consumed, and the context keeps the bytes behind them.  So the padding completes the same
blocks as it does for the message as a whole, and the digest is the same.
-/

namespace Registry

namespace Md5

/-! ## Whole blocks -/

/-- The bytes are whole blocks, and less than a block behind them. -/
structure SplitsAs (bytes : List UInt8) (blocks : List (List UInt8)) (rest : List UInt8) : Prop where
  bytes_eq : bytes = blocks.flatten ++ rest
  whole : ∀ block ∈ blocks, block.length = 64
  short : rest.length < 64

variable {bytes more rest rest' message : List UInt8} {blocks blocks' : List (List UInt8)}

theorem exists_splitsAs (bytes : List UInt8) : ∃ blocks rest, SplitsAs bytes blocks rest := by
  by_cases hshort : bytes.length < 64
  · exact ⟨[], bytes, rfl, nofun, hshort⟩
  · obtain ⟨blocks, rest, h⟩ := exists_splitsAs (bytes.drop 64)
    refine ⟨bytes.take 64 :: blocks, rest, ?_, ?_, h.short⟩
    · rw [List.flatten_cons, List.append_assoc, ← h.bytes_eq, List.take_append_drop]
    · intro block hblock
      rcases List.mem_cons.1 hblock with rfl | hblock
      · rw [List.length_take]
        omega
      · exact h.whole block hblock
termination_by bytes.length
decreasing_by
  rw [List.length_drop]
  omega

-- The bytes behind the blocks and those that follow make further blocks.
theorem SplitsAs.append (h : SplitsAs bytes blocks rest) (h' : SplitsAs (rest ++ more) blocks' rest') :
    SplitsAs (bytes ++ more) (blocks ++ blocks') rest' where
  bytes_eq := by
    rw [h.bytes_eq, List.append_assoc, h'.bytes_eq, List.flatten_append, List.append_assoc]
  whole := by
    intro block hblock
    rcases List.mem_append.1 hblock with hblock | hblock
    · exact h.whole block hblock
    · exact h'.whole block hblock
  short := h'.short

theorem SplitsAs.length_eq (h : SplitsAs bytes blocks rest) :
    bytes.length = 64 * blocks.length + rest.length := by
  have hflatten : blocks.flatten.length = 64 * blocks.length := by
    rw [List.length_flatten, List.map_congr_left h.whole, List.map_const', List.sum_replicate_nat]
    exact Nat.mul_comm _ _
  rw [h.bytes_eq, List.length_append, hflatten]

/-- A chain is changed by one whole block behind the other, and by nothing else. -/
theorem Chain.absorb_of_splitsAs (s : Chain) (h : SplitsAs bytes blocks rest) :
    s.absorb bytes = (blocks.foldl Chain.compress s, rest) := by
  obtain ⟨rfl, hwhole, hshort⟩ := h
  induction blocks generalizing s with
  | nil => exact s.absorb_of_short hshort
  | cons block blocks ih =>
    obtain ⟨hblock, hblocks⟩ := List.forall_mem_cons.1 hwhole
    rw [List.flatten_cons, List.append_assoc, s.absorb_block _ hblock, ih _ hblocks, List.foldl_cons]

/-- The digest takes in the whole blocks of the padded message, and nothing is left of it. -/
theorem checksum_eq_blocks (message : List UInt8) :
    ∃ blocks : List (List UInt8), (∀ block ∈ blocks, block.length = 64) ∧
      message ++ padding message.length = blocks.flatten ∧
      checksum message = (blocks.foldl Chain.compress .start).text := by
  obtain ⟨blocks, rest, h⟩ := exists_splitsAs (message ++ padding message.length)
  have hrest : rest = [] := by
    have hlength := h.length_eq
    have hpadded := length_padding message.length
    have hshort := h.short
    rw [List.length_append] at hlength
    exact List.eq_nil_of_length_eq_zero (by omega)
  refine ⟨blocks, h.whole, ?_, ?_⟩
  · rw [h.bytes_eq, hrest, List.append_nil]
  · rw [checksum, Chain.absorb_of_splitsAs _ h]

/-! ## What a context holds -/

/-- The context has consumed the message: its chain has taken in the whole blocks, and the bytes behind
them wait for more. -/
def Context.Holds (c : Context) (message : List UInt8) : Prop :=
  c.length = message.length ∧
    ∃ blocks, SplitsAs message blocks c.pending ∧ c.chain = blocks.foldl Chain.compress .start

theorem Context.holds_empty : Context.empty.Holds [] :=
  ⟨rfl, [], ⟨rfl, nofun, by decide⟩, rfl⟩

variable {c : Context}

theorem Context.Holds.consume (h : c.Holds message) (piece : List UInt8) :
    (c.consume piece).Holds (message ++ piece) := by
  obtain ⟨hlength, blocks, hsplit, hchain⟩ := h
  obtain ⟨blocks', rest, hsplit'⟩ := exists_splitsAs (c.pending ++ piece)
  have hconsume : c.consume piece = ⟨blocks'.foldl Chain.compress c.chain, rest, c.length + piece.length⟩ := by
    rw [Context.consume, Chain.absorb_of_splitsAs _ hsplit']
  rw [hconsume]
  refine ⟨?_, blocks ++ blocks', hsplit.append hsplit', ?_⟩
  · rw [List.length_append, ← hlength]
  · rw [List.foldl_append, ← hchain]

theorem Context.Holds.finish_eq (h : c.Holds message) : c.finish = checksum message := by
  obtain ⟨hlength, blocks, hsplit, hchain⟩ := h
  obtain ⟨blocks', rest, hsplit'⟩ := exists_splitsAs (c.pending ++ padding message.length)
  rw [Context.finish, hlength, Chain.absorb_of_splitsAs _ hsplit', checksum,
    Chain.absorb_of_splitsAs _ (hsplit.append hsplit'), List.foldl_append, ← hchain]

/-! ## The text of a digest -/

/-- The text is 32 hexadecimal digits in small letters. -/
def IsDigestText (text : String) : Prop :=
  text.length = 32 ∧ ∀ digit ∈ text.toList, digit ∈ "0123456789abcdef".toList

theorem mem_hexPair {b : UInt8} {digit : Char} (h : digit ∈ hexPair b) :
    digit ∈ "0123456789abcdef".toList := by
  have hdigits : ∀ n < 16, Nat.digitChar n ∈ "0123456789abcdef".toList := by decide
  have hbyte := b.toNat_lt
  simp only [hexPair, List.mem_cons, List.not_mem_nil, or_false] at h
  rcases h with rfl | rfl
  · exact hdigits _ (by omega)
  · exact hdigits _ (by omega)

theorem Chain.isDigestText (s : Chain) : IsDigestText s.text := by
  refine ⟨by simp [Chain.text, littleEndian, hexPair], fun digit hdigit => ?_⟩
  rw [Chain.text, String.toList_ofList] at hdigit
  obtain ⟨w, -, hdigit⟩ := List.mem_flatMap.1 hdigit
  obtain ⟨b, -, hdigit⟩ := List.mem_flatMap.1 hdigit
  exact mem_hexPair hdigit

end Md5

namespace Reads

variable {ε : Type} {reads : Reads ε} {message : List UInt8} {e : ε}

/-! ## What a source delivers -/

/-- The source delivers the message: pieces with some bytes each, then an empty one. -/
inductive Delivers : Reads ε → List UInt8 → Prop
  | ended : Delivers [] []
  | empty (reads : Reads ε) : Delivers (.ok [] :: reads) []
  | piece {part : List UInt8} {reads : Reads ε} {message : List UInt8} :
      part ≠ [] → Delivers reads message → Delivers (.ok part :: reads) (part ++ message)

/-- The source fails behind some pieces, none of them empty. -/
inductive Breaks : Reads ε → ε → Prop
  | now (e : ε) (reads : Reads ε) : Breaks (.error e :: reads) e
  | later {part : List UInt8} {reads : Reads ε} {e : ε} :
      part ≠ [] → Breaks reads e → Breaks (.ok part :: reads) e

theorem delivers_or_breaks (reads : Reads ε) :
    (∃ message, reads.Delivers message) ∨ ∃ e, reads.Breaks e := by
  induction reads with
  | nil => exact .inl ⟨[], .ended⟩
  | cons read reads ih =>
    match read with
    | .error e => exact .inr ⟨e, .now e reads⟩
    | .ok [] => exact .inl ⟨[], .empty reads⟩
    | .ok (byte :: more) =>
      obtain ⟨message, h⟩ | ⟨e, h⟩ := ih
      · exact .inl ⟨_, .piece nofun h⟩
      · exact .inr ⟨e, .later nofun h⟩

theorem digest_piece (c : Md5.Context) {part : List UInt8} (hpart : part ≠ []) (reads : Reads ε) :
    c.digest (.ok part :: reads) = (c.consume part).digest reads := by
  obtain ⟨byte, more, rfl⟩ := List.exists_cons_of_ne_nil hpart
  rw [Md5.Context.digest]

-- What a context already holds stands in front of what the source delivers to it.
theorem Delivers.digest_eq (h : reads.Delivers message) {c : Md5.Context} {held : List UInt8}
    (hc : c.Holds held) : c.digest reads = .ok (Md5.checksum (held ++ message)) := by
  induction h generalizing c held with
  | ended => rw [Md5.Context.digest, hc.finish_eq, List.append_nil]
  | empty reads => rw [Md5.Context.digest, hc.finish_eq, List.append_nil]
  | piece hpart _ ih => rw [digest_piece c hpart, ih (hc.consume _), List.append_assoc]

theorem Breaks.digest_eq (h : reads.Breaks e) (c : Md5.Context) : c.digest reads = .error e := by
  induction h generalizing c with
  | now e reads => rw [Md5.Context.digest]
  | later hpart _ ih => rw [digest_piece c hpart, ih]

theorem Delivers.checksum_eq (h : reads.Delivers message) :
    reads.checksum = .ok (Md5.checksum message) := by
  rw [Reads.checksum, h.digest_eq Md5.Context.holds_empty, List.nil_append]

/-- A source that delivers a message has the digest of the whole message, wherever the pieces end; a
source that fails before its empty piece has its failure instead, and there is no third kind of source.
The digest of a message takes in the blocks of the padded message and is shown in 32 hexadecimal
digits. -/
theorem checksum_delivered (reads : Reads ε) :
    (∀ message, reads.Delivers message → reads.checksum = .ok (Md5.checksum message)) ∧
    (∀ e, reads.Breaks e → reads.checksum = .error e) ∧
    ((∃ message, reads.Delivers message) ∨ ∃ e, reads.Breaks e) ∧
    ∀ message, Md5.IsDigestText (Md5.checksum message) ∧
      ∃ blocks : List (List UInt8), (∀ block ∈ blocks, block.length = 64) ∧
        message ++ Md5.padding message.length = blocks.flatten ∧
        Md5.checksum message = (blocks.foldl Md5.Chain.compress .start).text := by
  refine ⟨fun message h => h.checksum_eq, fun e h => ?_, reads.delivers_or_breaks, fun message => ?_⟩
  · exact h.digest_eq Md5.Context.empty
  · exact ⟨Md5.Chain.isDigestText _, Md5.checksum_eq_blocks message⟩

/-- The digits from one to nine and zero, eight times: a block and a quarter. -/
def eightRows : List UInt8 := (List.replicate 8 [49, 50, 51, 52, 53, 54, 55, 56, 57, 48]).flatten

/-- The digits in pieces of which the second one fills a block and begins the next. -/
def rowsInPieces : Reads FileFault :=
  [.ok (eightRows.take 63), .ok ((eightRows.drop 63).take 2), .ok (eightRows.drop 65), .ok []]

/-- The digits, but the last piece cannot be read. -/
def rowsBroken : Reads FileFault := rowsInPieces.take 2 ++ [.error .isDirectory, .ok []]

-- The digest of the digits is the one that the standard lists for them.
theorem checksum_delivered_rows :
    rowsInPieces.checksum = .ok "57edf4a22be3c955ac49da2e2107b67a" ∧
      rowsBroken.checksum = .error .isDirectory := by
  have hdigest : Md5.checksum eightRows = "57edf4a22be3c955ac49da2e2107b67a" := by decide +kernel
  have hdelivers : rowsInPieces.Delivers eightRows :=
    .piece (by decide) (.piece (by decide) (.piece (by decide) (.empty [])))
  have hbreaks : rowsBroken.Breaks .isDirectory :=
    .later (by decide) (.later (by decide) (.now _ _))
  refine ⟨?_, (checksum_delivered rowsBroken).2.1 _ hbreaks⟩
  rw [(checksum_delivered rowsInPieces).1 _ hdelivers, hdigest]

end Reads

/-! ## Files -/

theorem delivers_pieces {ε : Type} (limit : Nat) (bytes : List UInt8) :
    (pieces limit bytes : Reads ε).Delivers bytes := by
  fun_induction pieces limit bytes with
  | case1 => exact .empty []
  | case2 byte more ih =>
    have hbytes : byte :: more = (byte :: more.take (limit - 1)) ++ more.drop (limit - 1) := by
      rw [List.cons_append, List.take_append_drop]
    rw [hbytes]
    exact .piece nofun ih

/-- The digest of a file is that of its content. -/
theorem Tree.checksum_file {t : Tree} {path found : Path} {content : ByteArray}
    (h : t.find .following path = .ok (found, .file content)) :
    t.checksum path = .ok (Md5.checksum content.data.toList) := by
  have hreads : t.reads path = .ok (pieces pieceLimit content.data.toList) := by
    rw [Tree.reads, h]
    rfl
  rw [Tree.checksum, hreads]
  exact (delivers_pieces pieceLimit content.data.toList).checksum_eq

end Registry
