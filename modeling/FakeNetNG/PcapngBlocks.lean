import FakeNetNG.Pcapng

/-!
# The blocks of a capture

A block is read without a look at what follows it, and no block takes an observed packet back. What was read to
the end is one section whose interfaces all have statistics.
-/

namespace FakeNetNG
namespace Pcapng

open BlockScan

theorem ensure_ok {condition : Bool} {text : String} (h : ensure condition text = .ok ()) : condition = true := by
  cases condition with
  | false => cases h
  | true => rfl

theorem ensure_true {condition : Bool} (text : String) (h : condition = true) : ensure condition text = .ok () := by
  rw [ensure,if_pos h]

theorem need_ok {α : Type} {value : Option α} {text : String} {a : α} (h : need value text = .ok a) : value = some a := by
  cases value with
  | none => cases h
  | some b =>
    cases h
    rfl

theorem slice_append {a b : ℕ} {block : Bytes} (h : b ≤ block.length) (more : Bytes) : slice a b (block++more) = slice a b block := by
  rw [slice,slice,List.take_append_of_le_length h]

theorem unpack_append {endian : Endian} {offset size : ℕ} {block : Bytes} (h : offset+size ≤ block.length) (more : Bytes) :
    endian.unpack offset size (block++more) = endian.unpack offset size block := by
  rw [Endian.unpack,Endian.unpack,slice_append h]

theorem startsSection_append {block : Bytes} (h : 4 ≤ block.length) (more : Bytes) :
    startsSection (block++more) = startsSection block := by
  rw [startsSection,startsSection,List.take_append_of_le_length h]

theorem openSection_append {block : Bytes} {s : Scan} (h : 12 ≤ block.length) (more : Bytes) :
    openSection (block++more) s = openSection block s := by
  rw [openSection,openSection,startsSection_append (by omega),slice_append h]

/-- The two lengths of a block. -/
structure Framed (endian : Endian) (block : Bytes) : Prop where
  least : 12 ≤ block.length
  padded : block.length%4 = 0
  length : endian.unpack 4 4 block = block.length
  trailer : endian.unpack (block.length-4) 4 block = block.length

/-- How a block is read. -/
structure Turn (s s' : Scan) (block : Bytes) : Prop where
  opened : ∃ opened endian, openSection block s = .ok opened ∧ opened.endian = some endian ∧ Framed endian block ∧
    readBody endian (endian.unpack 0 4 block) (slice 8 (block.length-4) block) opened = .ok s'

theorem scanBlock_turn {s s' : Scan} {raw rest : Bytes} (h : scanBlock s raw = .ok (s',rest)) :
    ∃ block, raw = block++rest ∧ Turn s s' block := by
  rw [scanBlock] at h
  obtain ⟨⟨⟩,hleast,h⟩ := ok_of_bind h
  obtain ⟨opened,hopened,h⟩ := ok_of_bind h
  obtain ⟨endian,hendian,h⟩ := ok_of_bind h
  obtain ⟨⟨⟩,hlength,h⟩ := ok_of_bind h
  obtain ⟨⟨⟩,htrailer,h⟩ := ok_of_bind h
  obtain ⟨s'',hbody,h⟩ := ok_of_bind h
  cases h
  replace hlength := of_decide_eq_true (ensure_ok hlength)
  replace htrailer := of_decide_eq_true (ensure_ok htrailer)
  set length := endian.unpack 4 4 raw with hdef
  obtain ⟨hleast,hpadded,hfits⟩ := hlength
  have hraw : raw.take length++raw.drop length = raw := List.take_append_drop length raw
  have hblock : (raw.take length).length = length := by
    rw [List.length_take]
    omega
  refine ⟨raw.take length,hraw.symm,opened,endian,?_,need_ok hendian,⟨?_,?_,?_,?_⟩,?_⟩
  · rw [← openSection_append (by omega) (raw.drop length),hraw]
    exact hopened
  · rw [hblock]
    exact hleast
  · rw [hblock]
    exact hpadded
  · rw [← unpack_append (by omega) (raw.drop length),hraw,hblock]
  · rw [← unpack_append (by omega) (raw.drop length),hraw,hblock]
    exact htrailer
  · rw [← unpack_append (by omega) (raw.drop length),← slice_append (by omega) (raw.drop length),hraw,hblock]
    exact hbody

theorem Turn.scanBlock {s s' : Scan} {block : Bytes} (h : Turn s s' block) (more : Bytes) :
    scanBlock s (block++more) = .ok (s',more) := by
  obtain ⟨opened,endian,hopened,hendian,⟨hleast,hpadded,hlength,htrailer⟩,hbody⟩ := h
  have hraw : block.length ≤ (block++more).length := by simp
  have hlength' : endian.unpack 4 4 (block++more) = block.length := by
    rw [unpack_append (by omega),hlength]
  have htrailer' : endian.unpack (block.length-4) 4 (block++more) = block.length := by
    rw [unpack_append (by omega),htrailer]
  rw [Pcapng.scanBlock,ensure_true _ (decide_eq_true (hleast.trans hraw))]
  show (openSection (block++more) s >>= _) = _
  rw [openSection_append (by omega),hopened]
  show (need opened.endian _ >>= _) = _
  rw [hendian]
  show (ensure (decide (12 ≤ endian.unpack 4 4 (block++more) ∧ _ ∧ _)) _ >>= _) = _
  rw [hlength',ensure_true _ (decide_eq_true ⟨hleast,hpadded,hraw⟩)]
  show (ensure (decide (endian.unpack (block.length-4) 4 (block++more) = _)) _ >>= _) = _
  rw [ensure_true _ (decide_eq_true htrailer')]
  show (readBody endian (endian.unpack 0 4 (block++more)) (slice 8 (block.length-4) (block++more)) opened >>= _) = _
  rw [unpack_append (by omega),slice_append (by omega),hbody]
  show Except.ok (s',(block++more).drop block.length) = _
  rw [List.drop_left]

theorem scanBlock_local : Local scanBlock := by
  intro s s' raw rest h
  obtain ⟨block,hraw,hturn⟩ := scanBlock_turn h
  refine ⟨block,?_,hraw,hturn.scanBlock⟩
  rintro rfl
  obtain ⟨_,_,_,_,hframed,_⟩ := hturn.opened
  exact absurd hframed.least (by simp)

/-- A block that is read whatever follows it has its turn. -/
theorem turn_of_reads {s s' : Scan} {block : Bytes} (h : ∀ more, scanBlock s (block++more) = .ok (s',more)) : Turn s s' block := by
  obtain ⟨block',hblock,hturn⟩ := scanBlock_turn (h [])
  obtain rfl : block = block' := by simpa using hblock
  exact hturn

theorem openSection_packets {raw : Bytes} {s s' : Scan} (h : openSection raw s = .ok s') : s'.packets = s.packets := by
  rw [openSection] at h
  split at h
  · split at h
    · cases h
    · cases h
      rfl
  · cases h
    rfl

/-- What the body of a block adds. -/
inductive Adds (s : Scan) : Scan → Prop
  | nothing : Adds s s
  | interface (i : Interface) : Adds s { s with interfaces := s.interfaces++[i] }
  | packet (p : Packet) : Adds s { s with packets := s.packets++[p] }
  | statistics (i drops : ℕ) : Adds s { s with stats := s.stats++[(i,drops)] }

theorem readInterface_adds {endian : Endian} {body : Bytes} {s s' : Scan} (h : readInterface endian body s = .ok s') : Adds s s' := by
  obtain ⟨⟨⟩,-,h⟩ := ok_of_bind h
  obtain ⟨opts,-,h⟩ := ok_of_bind h
  obtain ⟨⟨⟩,-,h⟩ := ok_of_bind h
  obtain ⟨⟨⟩,-,h⟩ := ok_of_bind h
  obtain ⟨name,-,h⟩ := ok_of_bind h
  cases h
  exact .interface _

theorem readPacket_adds {endian : Endian} {body : Bytes} {s s' : Scan} (h : readPacket endian body s = .ok s') : Adds s s' := by
  obtain ⟨⟨⟩,-,h⟩ := ok_of_bind h
  obtain ⟨iface,-,h⟩ := ok_of_bind h
  obtain ⟨⟨⟩,-,h⟩ := ok_of_bind h
  obtain ⟨⟨⟩,-,h⟩ := ok_of_bind h
  obtain ⟨header,-,h⟩ := ok_of_bind h
  cases h
  exact .packet _

theorem readStatistics_adds {endian : Endian} {body : Bytes} {s s' : Scan} (h : readStatistics endian body s = .ok s') :
    Adds s s' := by
  obtain ⟨⟨⟩,-,h⟩ := ok_of_bind h
  obtain ⟨opts,-,h⟩ := ok_of_bind h
  obtain ⟨⟨⟩,-,h⟩ := ok_of_bind h
  obtain ⟨drops,-,h⟩ := ok_of_bind h
  obtain ⟨osDrops,-,h⟩ := ok_of_bind h
  cases h
  exact .statistics _ _

theorem readBody_adds {endian : Endian} {kind : ℕ} {body : Bytes} {s s' : Scan} (h : readBody endian kind body s = .ok s') :
    Adds s s' := by
  rw [readBody] at h
  split at h
  · exact readInterface_adds h
  split at h
  · exact readPacket_adds h
  split at h
  · exact readStatistics_adds h
  split at h
  · cases h
    exact .nothing
  · cases h

theorem Adds.packets {s s' : Scan} (h : Adds s s') : s.packets <+: s'.packets := by
  cases h with
  | packet p => exact List.prefix_append _ _
  | _ => exact List.prefix_rfl

theorem Adds.endian {s s' : Scan} (h : Adds s s') : s'.endian = s.endian := by
  cases h <;> rfl

theorem scanBlock_packets (s s' : Scan) (raw rest : Bytes) (h : scanBlock s raw = .ok (s',rest)) : s.packets <+: s'.packets := by
  obtain ⟨block,-,opened,endian,hopened,-,-,hbody⟩ := scanBlock_turn h
  rw [← openSection_packets hopened]
  exact (readBody_adds hbody).packets

theorem openSection_later {raw : Bytes} {s s' : Scan} {endian : Endian} (hopen : s.endian = some endian)
    (h : openSection raw s = .ok s') : startsSection raw = false ∧ s' = s := by
  rw [openSection,hopen] at h
  cases hstarts : startsSection raw with
  | true =>
    rw [hstarts] at h
    cases h
  | false =>
    rw [hstarts] at h
    cases h
    exact ⟨rfl,rfl⟩

theorem openSection_first {raw : Bytes} {s s' : Scan} {endian : Endian} (hclosed : s.endian = none)
    (h : openSection raw s = .ok s') (hopen : s'.endian = some endian) :
    startsSection raw = true ∧ byteOrder (slice 8 12 raw) = some endian := by
  rw [openSection,hclosed] at h
  cases hstarts : startsSection raw with
  | true =>
    rw [hstarts] at h
    cases h
    exact ⟨rfl,hopen⟩
  | false =>
    rw [hstarts] at h
    cases h
    rw [hclosed] at hopen
    cases hopen

/-- The blocks after the section header. -/
theorem reads_later {s s' : Scan} {blocks : List Bytes} {endian : Endian} (hopen : s.endian = some endian)
    (h : Reads scanBlock s blocks s') : ∀ block ∈ blocks, startsSection block = false ∧ Framed endian block := by
  induction h with
  | nil s => exact fun block h => absurd h List.not_mem_nil
  | cons _ hblock _ ih =>
    obtain ⟨opened,endian',hopened,hendian,hframed,hbody⟩ := (turn_of_reads hblock).opened
    obtain ⟨hlater,rfl⟩ := openSection_later hopen hopened
    obtain rfl : endian = endian' := Option.some.inj (hopen.symm.trans hendian)
    refine List.forall_mem_cons.mpr ⟨⟨hlater,hframed⟩,ih ?_⟩
    rw [(readBody_adds hbody).endian,hopen]

/-- A section header and framed blocks that are none. -/
structure SingleSection (blocks : List Bytes) : Prop where
  header : ∃ endian header later, blocks = header :: later ∧ startsSection header = true ∧
    byteOrder (slice 8 12 header) = some endian ∧ Framed endian header ∧
    ∀ block ∈ later, startsSection block = false ∧ Framed endian block

theorem singleSection_of_reads {s : Scan} {blocks : List Bytes} (h : Reads scanBlock Scan.init blocks s) (hne : blocks ≠ []) :
    SingleSection blocks := by
  cases h with
  | nil => exact absurd rfl hne
  | cons _ hblock htail =>
    obtain ⟨opened,endian,hopened,hendian,hframed,hbody⟩ := (turn_of_reads hblock).opened
    obtain ⟨hfirst,horder⟩ := openSection_first rfl hopened hendian
    have hopen := (readBody_adds hbody).endian.trans hendian
    exact ⟨endian,_,_,rfl,hfirst,horder,hframed,reads_later hopen htail⟩

/-- Blocks at the front of a capture that can be read, and what they show. -/
structure ParsedPrefix (raw : Bytes) (blocks : List Bytes) (s : Scan) : Prop where
  least : 28 ≤ raw.length
  bounded : raw.length < limit
  before : blocks.flatten <+: raw
  reads : Reads scanBlock Scan.init blocks s

/-- A capture that is one section to its end, with statistics for every interface and without a loss. -/
structure Complete (raw : Bytes) (blocks : List Bytes) (s : Scan) : Prop where
  parsed : ParsedPrefix raw blocks s
  whole : blocks.flatten = raw
  single : SingleSection blocks
  interfaces : s.interfaces ≠ []
  statistics : ∀ i < s.interfaces.length, s.stats.lookup i = some 0
  known : ∀ entry ∈ s.stats, entry.1 < s.interfaces.length

theorem finish_ok {s : Scan} {capture : Capture} (h : finish s = .ok capture) :
    capture = ⟨s.interfaces,s.packets,s.stats⟩ ∧ s.interfaces ≠ [] ∧
      (∀ i < s.interfaces.length, s.stats.lookup i = some 0) ∧ ∀ entry ∈ s.stats, entry.1 < s.interfaces.length := by
  rw [finish] at h
  obtain ⟨⟨⟩,hstats,h⟩ := ok_of_bind h
  obtain ⟨⟨⟩,hdrops,h⟩ := ok_of_bind h
  cases h
  have hstats := ensure_ok hstats
  simp only [Bool.and_eq_true,Bool.not_eq_true',List.isEmpty_eq_false_iff,List.all_eq_true,List.mem_range,
    decide_eq_true_eq] at hstats
  obtain ⟨⟨hinterfaces,hevery⟩,hknown⟩ := hstats
  have hdrops := List.all_eq_true.mp (ensure_ok hdrops)
  refine ⟨rfl,hinterfaces,fun i hi => ?_,hknown⟩
  obtain ⟨drops,hlookup⟩ := Option.isSome_iff_exists.mp (hevery i hi)
  obtain ⟨before,after,hstats,-⟩ := List.lookup_eq_some_iff.mp hlookup
  have hzero : drops = 0 := of_decide_eq_true (hdrops (i,drops) (by simp [hstats]))
  rw [hlookup,hzero]

/-- The packets that `parse_capture` has observed are those of the longest prefix that can be read. -/
theorem observed_of_prefix {raw : Bytes} {blocks : List Bytes} {s : Scan} (h : ParsedPrefix raw blocks s) :
    s.packets <+: (parseCapture raw).1 := by
  obtain ⟨rest,hrest⟩ := h.before
  have hscan := reads_before_scan (r:=fun s s' => s.packets <+: s'.packets) scanBlock_local
    (fun _ => List.prefix_rfl) (fun _ _ _ => List.IsPrefix.trans) scanBlock_packets h.reads
    (show (blocks.flatten++rest).length ≤ raw.length by rw [hrest])
  rw [hrest] at hscan
  rw [parseCapture,if_neg (by have := h.least; have := h.bounded; omega)]
  split <;> rename_i heq <;> rw [heq] at hscan <;> exact hscan

theorem prefix_of_observed {raw : Bytes} {p : Packet} (h : p ∈ (parseCapture raw).1) :
    ∃ blocks s, ParsedPrefix raw blocks s ∧ p ∈ s.packets := by
  rw [parseCapture] at h
  split at h
  · exact absurd h List.not_mem_nil
  next hsize =>
  obtain ⟨blocks,rest,hraw,hreads,-⟩ := scan_reads scanBlock_local (s:=Scan.init) (le_refl raw.length)
  refine ⟨blocks,_,⟨by omega,by omega,⟨rest,hraw.symm⟩,hreads⟩,?_⟩
  split at h <;> rename_i heq <;> rw [heq] <;> exact h

theorem complete_of_parsed {raw : Bytes} {capture : Capture} (h : (parseCapture raw).2 = .ok capture) :
    capture.packets = (parseCapture raw).1 ∧ ∃ blocks s, Complete raw blocks s ∧ capture = ⟨s.interfaces,s.packets,s.stats⟩ := by
  rw [parseCapture] at h ⊢
  by_cases hsize : raw.length < 28 ∨ limit ≤ raw.length
  · rw [if_pos hsize] at h
    cases h
  rw [if_neg hsize] at h ⊢
  obtain ⟨blocks,rest,hraw,hreads,hdone⟩ := scan_reads scanBlock_local (s:=Scan.init) (le_refl raw.length)
  cases hscan : scan scanBlock raw.length Scan.init raw with
  | mk s fault =>
    rw [hscan] at h hreads hdone
    cases fault with
    | some text => cases h
    | none =>
      obtain ⟨rfl,hinterfaces,hstatistics,hknown⟩ := finish_ok h
      obtain rfl := hdone rfl
      have hwhole : blocks.flatten = raw := by simpa using hraw.symm
      have hne : blocks ≠ [] := by
        rintro rfl
        rw [← hwhole] at hsize
        exact hsize (.inl (by simp))
      exact ⟨rfl,blocks,s,⟨⟨by omega,by omega,by rw [hwhole],hreads⟩,hwhole,singleSection_of_reads hreads hne,
        hinterfaces,hstatistics,hknown⟩,rfl⟩

end Pcapng
end FakeNetNG
