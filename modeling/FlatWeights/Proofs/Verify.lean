import FlatWeights.Proofs.Emitter.Places
import FlatWeights.Proofs.WeightFile
import FlatWeights.Verify
import Mathlib.Algebra.BigOperators.Ring.List
import Mathlib.Algebra.Ring.Nat
import Mathlib.Data.List.Nodup

/-!
What a check of a directory answers. The check reads no more of a weight file than its header and
its length; it passes exactly the files that the decoder reads to their last byte
(`payloadOf_eq_ok_iff`). From this one step the whole check follows by induction over the entries:
it goes on as long as the files are sound and ends at the first one that is not (`gather_eq_ok_iff`,
`gather_eq_error_iff`).

All of this is said of what stands at the paths of the entries. That these paths lead to what the
directory has is another matter, and it fails for one reason only: a path that is longer than the
file system takes (`Disk.check_agrees`). And a file is read through a buffer: where that cannot be
made the check stops at the first file that it opens, whatever is in it.
-/

set_option autoImplicit false

namespace FlatWeights

open Emitter WeightFile

namespace VerifyReport

/-! ## The names of the entries -/

/-- A name that is not empty and not hidden. -/
def Shown (name : String) : Prop := name ≠ "" ∧ name.toList.head? ≠ some '.'

/-- The entries that are looked at are those with the file name of a name that is shown. -/
theorem stem?_eq_some_iff {entry s : String} :
    stem? entry = some s ↔ entry = fileName s ∧ Shown s := by
  -- the ending is cut off at the front of the reversed characters
  have hcut : ∀ stem : List Char,
      Text.after? ".bin".toList.reverse entry.toList.reverse = some stem ↔
        entry = fileName (String.ofList stem.reverse) := by
    intro stem
    rw [Text.after?_eq_some_iff, ← List.reverse_inj, List.reverse_reverse, List.reverse_append,
      List.reverse_reverse, ← String.toList_inj, toList_fileName, String.toList_ofList,
      String.toList_ofList]
  rw [stem?]
  constructor
  · intro h
    split at h
    · exact absurd h (by simp)
    · rename_i stem hstem
      have hentry := (hcut stem).1 hstem
      split at h
      · exact absurd h (by simp)
      · rename_i hshown
        obtain rfl := Option.some.inj h
        obtain ⟨hne, hhead⟩ := not_or.1 hshown
        refine ⟨hentry, by simpa [String.ext_iff] using hne, fun hdot => hhead ?_⟩
        rw [hentry, toList_fileName, List.head?_append, hdot]
        rfl
  · rintro ⟨rfl, hne, hdot⟩
    have hstem := (hcut s.toList.reverse).2 (by rw [List.reverse_reverse, String.ofList_toList])
    rw [hstem]
    have hnil : s.toList ≠ [] := mt String.toList_eq_nil_iff.1 hne
    obtain ⟨c, rest, hs⟩ := List.exists_cons_of_ne_nil hnil
    have hshown : ¬ (s.toList.reverse = [] ∨ (fileName s).toList.head? = some '.') := by
      rw [toList_fileName, hs]
      rw [hs] at hdot
      simpa using hdot
    simp only [if_neg hshown, List.reverse_reverse, String.ofList_toList]

/-! ## One file -/

variable {s : String} {content : Bytes} {n : Nat}

/-- A file that ends within its header is reported with its length. -/
theorem payloadOf_of_short (h : content.length < headerLength) :
    payloadOf s content = .error (.failed (.tensorRead s (.shorterThanHeader content.length))) := by
  rw [payloadOf, if_pos h]

/-- Behind a header that is all there, the bytes that it asks for are counted first, and then
compared with those that follow. -/
theorem payloadOf_header_append (s : String) (header : Header) (payload : Bytes) :
    payloadOf s (header.toBytes ++ payload) =
      if Size.limit ≤ header.count * 4 then .error .overflow
      else if header.count * 4 = payload.length then .ok payload.length
      else .error (.failed (.tensorRead s
        (.payloadLength header.lengths (header.count * 4) payload.length))) := by
  have hlong : ¬ (header.toBytes ++ payload).length < headerLength := by
    rw [List.length_append, header.length_toBytes]
    omega
  rw [payloadOf, if_neg hlong, readHeader_append]
  by_cases hsize : Size.limit ≤ header.count * 4
  · simp only [Header.payloadLength?_eq_none_iff.2 hsize, if_pos hsize]
  · have hpayload := Header.payloadLength?_eq_some_iff.2 ⟨rfl, Nat.not_le.1 hsize⟩
    simp only [hpayload, if_neg hsize]

/-- A file passes if the decoder reads it to its last byte, and only then. -/
theorem payloadOf_eq_ok_iff : payloadOf s content = .ok n ↔
    (∃ read, decode content = .ok (read, [])) ∧ n = content.length - headerLength := by
  by_cases hlong : headerLength ≤ content.length
  · obtain ⟨header, payload, rfl⟩ := exists_header hlong
    have hlength : (header.toBytes ++ payload).length - headerLength = payload.length := by
      rw [List.length_append, header.length_toBytes]
      omega
    rw [payloadOf_header_append, hlength]
    constructor
    · intro h
      split at h
      · exact absurd h (by simp)
      · rename_i hsize
        split at h
        · rename_i hexact
          refine ⟨?_, (Except.ok.inj h).symm⟩
          rw [decode_header_append, if_neg hsize, if_pos (Nat.le_of_eq hexact), hexact,
            List.drop_length]
          exact ⟨_, rfl⟩
        · exact absurd h (by simp)
    · rintro ⟨⟨read, hread⟩, rfl⟩
      obtain ⟨hbytes, hdata, hsize⟩ := decode_eq_ok_iff.1 hread
      -- the header that was read is the one at the front
      rw [List.append_nil, encode, pieces, List.flatten_cons] at hbytes
      obtain ⟨rfl, rfl⟩ := Header.eq_of_append_eq hbytes
      have hexact : read.header.count * 4 = (read.data.map Element.toBytes).flatten.length := by
        rw [Element.length_flatten_toBytes, hdata]
      rw [if_neg (Nat.not_le.2 hsize), if_pos hexact]
  · have hshort : content.length < headerLength := Nat.not_le.1 hlong
    rw [payloadOf_of_short hshort, decode_of_short hshort]
    simp

/-! ## One file after the other -/

section Gather

variable {found : String → Except Stop Nat} {size : String → Nat} {names front back : List String}
  {report result : VerifyReport} {stop : Stop}

/-- A report goes on with what was found under further names, as long as something is. -/
def gather (found : String → Except Stop Nat) (names : List String) (report : VerifyReport) :
    Except Stop VerifyReport :=
  names.foldlM (fun report s => do report.add s (← found s)) report

/-- The first name is looked at and added before the others. -/
theorem gather_cons (found : String → Except Stop Nat) (s : String) (names : List String)
    (report : VerifyReport) : gather found (s :: names) report =
      (found s).bind fun n => (report.add s n).bind (gather found names) := by
  simp only [gather, List.foldlM_cons, bind, Except.bind]
  cases found s <;> rfl

/-- A name that is in order is added if there is room for its bytes. -/
theorem gather_cons_of_ok (hs : found s = .ok n) (hroom : report.payloadBytes + n < Size.limit) :
    gather found (s :: names) report =
      gather found names ⟨report.files ++ [s], report.payloadBytes + n⟩ := by
  have hadd : report.add s n = .ok ⟨report.files ++ [s], report.payloadBytes + n⟩ := by
    rw [add, Size.add?_eq_some_iff.2 ⟨rfl, hroom⟩]
  rw [gather_cons, hs, Except.bind, hadd, Except.bind]

/-- A name that is not in order ends the check with what is wrong with it. -/
theorem gather_cons_of_error (hs : found s = .error stop) :
    gather found (s :: names) report = .error stop := by
  rw [gather_cons, hs, Except.bind]

/-- A name that is in order ends the check if its bytes make the sum too large. -/
theorem gather_cons_of_crowded (hs : found s = .ok n)
    (hfull : Size.limit ≤ report.payloadBytes + n) :
    gather found (s :: names) report = .error .overflow := by
  have hnone : Size.add? report.payloadBytes n = none := by
    rw [Option.eq_none_iff_forall_ne_some]
    intro total htotal
    exact absurd (Size.add?_eq_some_iff.1 htotal).2 (Nat.not_lt.2 hfull)
  have hadd : report.add s n = .error .overflow := by
    rw [add, hnone]
  rw [gather_cons, hs, Except.bind, hadd, Except.bind]

/-- Names under which everything is in order are added, with what was found under them. -/
theorem gather_append (back : List String) (hfront : ∀ t ∈ front, found t = .ok (size t))
    (hroom : report.payloadBytes + (front.map size).sum < Size.limit) :
    gather found (front ++ back) report =
      gather found back ⟨report.files ++ front, report.payloadBytes + (front.map size).sum⟩ := by
  induction front generalizing report with
  | nil => simp
  | cons t front ih =>
    rw [List.map_cons, List.sum_cons] at hroom ⊢
    have hfirst : report.payloadBytes + size t < Size.limit := by omega
    rw [List.cons_append, gather_cons_of_ok (hfront t List.mem_cons_self) hfirst,
      ih (fun t ht => hfront t (List.mem_cons_of_mem _ ht)) (by dsimp only; omega)]
    simp only [List.append_assoc, List.singleton_append, Nat.add_assoc]

/-- A name stops a check that has found so many bytes before it: because of what is under it, or as
the bytes together are no size any more. -/
def Stops (found : String → Except Stop Nat) (bytes : Nat) (s : String) (stop : Stop) : Prop :=
  found s = .error stop ∨ stop = .overflow ∧ ∃ n, found s = .ok n ∧ Size.limit ≤ bytes + n

/-- A name that stops the check decides on the answer, whatever comes after it. -/
theorem gather_of_stops (h : Stops found report.payloadBytes s stop) :
    gather found (s :: back) report = .error stop := by
  obtain hs | ⟨rfl, n, hs, hfull⟩ := h
  · exact gather_cons_of_error hs
  · exact gather_cons_of_crowded hs hfull

variable (hsize : ∀ s n, found s = .ok n → n = size s)

include hsize

/-- Either everything is in order, or there is a first name that is not. -/
theorem exists_stops (names : List String) {bytes : Nat} (hbytes : bytes < Size.limit) :
    ((∀ t ∈ names, found t = .ok (size t)) ∧ bytes + (names.map size).sum < Size.limit) ∨
      ∃ front s back stop, names = front ++ s :: back ∧ (∀ t ∈ front, found t = .ok (size t)) ∧
        bytes + (front.map size).sum < Size.limit ∧
          Stops found (bytes + (front.map size).sum) s stop := by
  -- the induction is on the names that are left; `bytes` is what those before them have added
  induction names generalizing bytes with
  | nil => exact .inl ⟨by simp, by simpa using hbytes⟩
  | cons s names ih =>
    cases hs : found s with
    | error stop => exact .inr ⟨[], s, names, stop, rfl, by simp, by simpa using hbytes, .inl hs⟩
    | ok n =>
      obtain rfl := hsize s n hs
      by_cases hfirst : bytes + size s < Size.limit
      · have hgood : ∀ front : List String, (∀ t ∈ front, found t = .ok (size t)) →
            ∀ t ∈ s :: front, found t = .ok (size t) := fun front hfront =>
          List.forall_mem_cons.2 ⟨hs, hfront⟩
        obtain ⟨hnames, hroom⟩ | ⟨front, t, back, stop, rfl, hfront, hroom, hstops⟩ := ih hfirst
        · refine .inl ⟨hgood names hnames, ?_⟩
          rwa [List.map_cons, List.sum_cons, ← Nat.add_assoc]
        · refine .inr ⟨s :: front, t, back, stop, rfl, hgood front hfront, ?_⟩
          rw [List.map_cons, List.sum_cons, ← Nat.add_assoc]
          exact ⟨hroom, hstops⟩
      · exact .inr ⟨[], s, names, .overflow, rfl, by simp, by simpa using hbytes,
          .inr ⟨rfl, size s, hs, by simpa using hfirst⟩⟩

/-- A check passes if everything is in order and the sum is a size, and reports just that. -/
theorem gather_eq_ok_iff (hreport : report.payloadBytes < Size.limit) :
    gather found names report = .ok result ↔ (∀ t ∈ names, found t = .ok (size t)) ∧
      report.payloadBytes + (names.map size).sum < Size.limit ∧
        result = ⟨report.files ++ names, report.payloadBytes + (names.map size).sum⟩ := by
  constructor
  · intro h
    obtain ⟨hnames, hroom⟩ | ⟨front, s, back, stop, rfl, hfront, hroom, hstops⟩ :=
      exists_stops hsize names hreport
    · have hall := gather_append [] hnames hroom
      rw [List.append_nil, h] at hall
      exact ⟨hnames, hroom, Except.ok.inj hall⟩
    · rw [gather_append _ hfront hroom, gather_of_stops hstops] at h
      exact absurd h (by simp)
  · rintro ⟨hnames, hroom, rfl⟩
    have hall := gather_append [] hnames hroom
    rwa [List.append_nil] at hall

/-- If everything is in order but for the number of bytes together, that is what is answered. -/
theorem gather_of_full (hreport : report.payloadBytes < Size.limit)
    (hnames : ∀ t ∈ names, found t = .ok (size t))
    (hfull : Size.limit ≤ report.payloadBytes + (names.map size).sum) :
    gather found names report = .error .overflow := by
  obtain ⟨-, hroom⟩ | ⟨front, s, back, stop, rfl, hfront, hroom, hstops⟩ :=
    exists_stops hsize names hreport
  · exact absurd hroom (Nat.not_lt.2 hfull)
  · have hs := hnames s (by simp)
    obtain rfl : stop = .overflow := by
      obtain herror | ⟨hstop, -⟩ := hstops
      · exact absurd (hs.symm.trans herror) (by simp)
      · exact hstop
    rw [gather_append _ hfront hroom, gather_of_stops hstops]

/-- A check fails at the first name that stops it, and with the answer of that name. -/
theorem gather_eq_error_iff (hreport : report.payloadBytes < Size.limit) :
    gather found names report = .error stop ↔ ∃ front s back, names = front ++ s :: back ∧
      (∀ t ∈ front, found t = .ok (size t)) ∧
        report.payloadBytes + (front.map size).sum < Size.limit ∧
          Stops found (report.payloadBytes + (front.map size).sum) s stop := by
  constructor
  · intro h
    obtain ⟨hnames, hroom⟩ | ⟨front, s, back, first, rfl, hfront, hroom, hstops⟩ :=
      exists_stops hsize names hreport
    · have hall := gather_append [] hnames hroom
      rw [List.append_nil, h] at hall
      exact absurd hall (by simp [gather, pure, Except.pure])
    · rw [gather_append _ hfront hroom, gather_of_stops hstops] at h
      obtain rfl := Except.error.inj h
      exact ⟨front, s, back, rfl, hfront, hroom, hstops⟩
  · rintro ⟨front, s, back, rfl, hfront, hroom, hstops⟩
    rw [gather_append _ hfront hroom, gather_of_stops hstops]

end Gather

end VerifyReport

namespace Disk

variable {d : Disk} {base dir p : Path} {buffer : Nat} {l : Location} {s : String} {n : Nat}
  {stop : Stop}

/-! ## The weight files of a directory -/

/-- The output names of the weight files of a directory, in the order of its entries. -/
def shown (d : Disk) (p : Path) : List String := (d.names p).filterMap VerifyReport.stem?

/-- A name is shown by a directory that has an entry with its file name. -/
theorem mem_shown : s ∈ d.shown p ↔ VerifyReport.Shown s ∧ fileName s ∈ d.names p := by
  rw [shown, List.mem_filterMap]
  constructor
  · rintro ⟨entry, hentry, hs⟩
    obtain ⟨rfl, hshown⟩ := VerifyReport.stem?_eq_some_iff.1 hs
    exact ⟨hshown, hentry⟩
  · rintro ⟨hshown, hentry⟩
    exact ⟨fileName s, hentry, VerifyReport.stem?_eq_some_iff.2 ⟨rfl, hshown⟩⟩

/-- No name is shown twice, since no two entries of a directory have the same name. -/
theorem nodup_shown (d : Disk) (p : Path) : (d.shown p).Nodup := by
  have hnames : (d.names p).Nodup := by
    rw [names]
    split
    · exact List.nodup_nil
    · split
      · exact d.tree.nodup_names _
      · exact List.nodup_nil
  refine List.Nodup.filterMap (fun entry entry' s hentry hentry' => ?_) hnames
  obtain ⟨rfl, -⟩ := VerifyReport.stem?_eq_some_iff.1 hentry
  obtain ⟨rfl, -⟩ := VerifyReport.stem?_eq_some_iff.1 hentry'
  rfl

/-- What opens at the path of a weight file is a file that the decoder reads to its last byte, and
there is a buffer to read it through. -/
structure Sound (d : Disk) (buffer : Nat) (p : Path) (s : String) : Prop where
  room : buffer < Size.bufferLimit
  reads : ∃ content read, d.open? (p.join (fileName s)) = some (.file content) ∧
    decode content = .ok (read, [])

/-- The number of bytes behind the header of a weight file. -/
def payload (d : Disk) (p : Path) (s : String) : Nat :=
  (d.open? (p.join (fileName s))).elim 0 fun
    | .file content => content.length - headerLength
    | .directory => 0

/-- What is wrong with a weight file, and what a check answers because of it. -/
inductive Fault (d : Disk) (buffer : Nat) (p : Path) (s : String) : Stop → Prop
  /-- It cannot be opened. -/
  | unopened (hnone : d.open? (p.join (fileName s)) = none) :
    Fault d buffer p s (.failed (.storeOpen (p.join (fileName s)) .cannotOpen))
  /-- It is opened, but there is no buffer to read it through. -/
  | unbuffered (opened : Opened) (hopen : d.open? (p.join (fileName s)) = some opened)
    (hbuffer : Size.bufferLimit ≤ buffer) : Fault d buffer p s .overflow
  /-- It is a directory. -/
  | directory (hroom : buffer < Size.bufferLimit)
    (hopen : d.open? (p.join (fileName s)) = some .directory) :
    Fault d buffer p s (.failed (.tensorRead s .headerOfDirectory))
  /-- It ends within its header. -/
  | short (hroom : buffer < Size.bufferLimit) (content : Bytes)
    (hopen : d.open? (p.join (fileName s)) = some (.file content))
    (hshort : content.length < headerLength) :
    Fault d buffer p s (.failed (.tensorRead s (.shorterThanHeader content.length)))
  /-- Its header asks for a number of bytes that is a size, but not the number of those that follow
  it. -/
  | unequal (hroom : buffer < Size.bufferLimit) (header : Header) (payload : Bytes)
    (hopen : d.open? (p.join (fileName s)) = some (.file (header.toBytes ++ payload)))
    (hsize : header.count * 4 < Size.limit) (hne : header.count * 4 ≠ payload.length) :
    Fault d buffer p s (.failed (.tensorRead s
      (.payloadLength header.lengths (header.count * 4) payload.length)))
  /-- Its header asks for a number of bytes that is no size. -/
  | vast (hroom : buffer < Size.bufferLimit) (header : Header) (payload : Bytes)
    (hopen : d.open? (p.join (fileName s)) = some (.file (header.toBytes ++ payload)))
    (hsize : Size.limit ≤ header.count * 4) : Fault d buffer p s .overflow

/-- What the check of one weight file answers. -/
def examined (d : Disk) (buffer : Nat) (p : Path) (s : String) : Except Stop Nat :=
  (d.open? (p.join (fileName s))).elim
    (.error (.failed (.storeOpen (p.join (fileName s)) .cannotOpen))) fun opened =>
      if buffer < Size.bufferLimit then VerifyReport.check s opened else .error .overflow

/-- What cannot be opened is reported as such. -/
theorem examined_of_none (hopen : d.open? (p.join (fileName s)) = none) :
    d.examined buffer p s = .error (.failed (.storeOpen (p.join (fileName s)) .cannotOpen)) := by
  rw [examined, hopen, Option.elim_none]

/-- Where no buffer can be made, nothing is read of what was opened. -/
theorem examined_of_unbuffered {opened : Opened} (hbuffer : Size.bufferLimit ≤ buffer)
    (hopen : d.open? (p.join (fileName s)) = some opened) :
    d.examined buffer p s = .error .overflow := by
  rw [examined, hopen, Option.elim_some, if_neg (Nat.not_lt.2 hbuffer)]

/-- A directory is opened, but has no header to be read. -/
theorem examined_of_directory (hroom : buffer < Size.bufferLimit)
    (hopen : d.open? (p.join (fileName s)) = some .directory) :
    d.examined buffer p s = .error (.failed (.tensorRead s .headerOfDirectory)) := by
  rw [examined, hopen, Option.elim_some, if_pos hroom, VerifyReport.check]

/-- A file is judged by its content. -/
theorem examined_of_file {content : Bytes} (hroom : buffer < Size.bufferLimit)
    (hopen : d.open? (p.join (fileName s)) = some (.file content)) :
    d.examined buffer p s = VerifyReport.payloadOf s content := by
  rw [examined, hopen, Option.elim_some, if_pos hroom, VerifyReport.check]

/-- The payload of a file is what is behind its header. -/
theorem payload_of_file {content : Bytes}
    (hopen : d.open? (p.join (fileName s)) = some (.file content)) :
    d.payload p s = content.length - headerLength := by
  rw [payload, hopen, Option.elim_some]

/-- A weight file passes if it is sound, and counts with the bytes behind its header. -/
theorem examined_eq_ok_iff :
    d.examined buffer p s = .ok n ↔ d.Sound buffer p s ∧ n = d.payload p s := by
  constructor
  · intro h
    cases hopen : d.open? (p.join (fileName s)) with
    | none =>
      rw [examined_of_none hopen] at h
      exact absurd h (by simp)
    | some opened =>
      by_cases hroom : buffer < Size.bufferLimit
      swap
      · rw [examined_of_unbuffered (Nat.not_lt.1 hroom) hopen] at h
        exact absurd h (by simp)
      cases opened with
      | directory =>
        rw [examined_of_directory hroom hopen] at h
        exact absurd h (by simp)
      | file content =>
        rw [examined_of_file hroom hopen] at h
        obtain ⟨⟨read, hread⟩, hn⟩ := VerifyReport.payloadOf_eq_ok_iff.1 h
        exact ⟨⟨hroom, content, read, hopen, hread⟩, hn.trans (payload_of_file hopen).symm⟩
  · rintro ⟨⟨hroom, content, read, hopen, hread⟩, rfl⟩
    rw [examined_of_file hroom hopen, payload_of_file hopen]
    exact VerifyReport.payloadOf_eq_ok_iff.2 ⟨⟨read, hread⟩, rfl⟩

/-- Whatever passes counts with its payload. -/
theorem eq_payload_of_examined (s : String) (n : Nat) (h : d.examined buffer p s = .ok n) :
    n = d.payload p s :=
  (examined_eq_ok_iff.1 h).2

/-- What is sound passes. -/
theorem examined_of_sound (h : d.Sound buffer p s) :
    d.examined buffer p s = .ok (d.payload p s) :=
  examined_eq_ok_iff.2 ⟨h, rfl⟩

theorem sound_iff : d.Sound buffer p s ↔ d.examined buffer p s = .ok (d.payload p s) :=
  ⟨examined_of_sound, fun h => (examined_eq_ok_iff.1 h).1⟩

/-- A file that does not pass has a fault. -/
theorem fault_of_file {content : Bytes} (hroom : buffer < Size.bufferLimit)
    (hopen : d.open? (p.join (fileName s)) = some (.file content))
    (h : VerifyReport.payloadOf s content = .error stop) : d.Fault buffer p s stop := by
  by_cases hlong : headerLength ≤ content.length
  · obtain ⟨header, payload, rfl⟩ := exists_header hlong
    rw [VerifyReport.payloadOf_header_append] at h
    split at h
    · rename_i hsize
      obtain rfl := Except.error.inj h
      exact .vast hroom header payload hopen hsize
    · rename_i hsize
      split at h
      · exact absurd h (by simp)
      · rename_i hne
        obtain rfl := Except.error.inj h
        exact .unequal hroom header payload hopen (Nat.not_le.1 hsize) hne
  · have hshort := Nat.not_le.1 hlong
    rw [VerifyReport.payloadOf_of_short hshort] at h
    obtain rfl := Except.error.inj h
    exact .short hroom content hopen hshort

/-- A weight file that does not pass has a fault, which decides on the answer. -/
theorem examined_eq_error_iff :
    d.examined buffer p s = .error stop ↔ d.Fault buffer p s stop := by
  -- every exit of the check has its constructor, and in each of them the check takes that exit
  constructor
  · intro h
    cases hopen : d.open? (p.join (fileName s)) with
    | none =>
      rw [examined_of_none hopen] at h
      obtain rfl := Except.error.inj h
      exact .unopened hopen
    | some opened =>
      by_cases hroom : buffer < Size.bufferLimit
      swap
      · rw [examined_of_unbuffered (Nat.not_lt.1 hroom) hopen] at h
        obtain rfl := Except.error.inj h
        exact .unbuffered opened hopen (Nat.not_lt.1 hroom)
      cases opened with
      | directory =>
        rw [examined_of_directory hroom hopen] at h
        obtain rfl := Except.error.inj h
        exact .directory hroom hopen
      | file content =>
        rw [examined_of_file hroom hopen] at h
        exact fault_of_file hroom hopen h
  · intro h
    cases h with
    | unopened hnone => exact examined_of_none hnone
    | unbuffered opened hopen hbuffer => exact examined_of_unbuffered hbuffer hopen
    | directory hroom hopen => exact examined_of_directory hroom hopen
    | short hroom content hopen hshort =>
      rw [examined_of_file hroom hopen, VerifyReport.payloadOf_of_short hshort]
    | unequal hroom header payload hopen hsize hne =>
      rw [examined_of_file hroom hopen, VerifyReport.payloadOf_header_append,
        if_neg (Nat.not_le.2 hsize), if_neg hne]
    | vast hroom header payload hopen hsize =>
      rw [examined_of_file hroom hopen, VerifyReport.payloadOf_header_append, if_pos hsize]

/-! ## The check of a directory -/

/-- A file is opened for reading if it is there, and if its buffer can be made. -/
theorem outcome_openRead (buffer : Nat) (base p : Path) (d : Disk) :
    d.outcome ((Storage.below base buffer).openRead p) =
      ((d.open? (base.join p)).elim (.error (.failed (.storeOpen (base.join p) .cannotOpen)))
        fun opened => if buffer < Size.bufferLimit then .ok opened else .error .overflow, d) := by
  rw [Storage.below, outcome_bind_ok (outcome_always d _), run_open?, Storage.makeBuffer]
  cases d.open? (base.join p) with
  | none => rfl
  | some opened =>
    simp only [Option.elim_some]
    split <;> rfl

/-- The entries of a directory are checked one after the other, and nothing is changed. -/
theorem outcome_extend (buffer : Nat) (base dir : Path) (entries : List String)
    (report : VerifyReport) (d : Disk) :
    d.outcome (VerifyReport.extend (Storage.below base buffer) dir entries report) =
      (VerifyReport.gather (d.examined buffer (base.join dir))
        (entries.filterMap VerifyReport.stem?) report, d) := by
  -- an entry that is no weight file is left out on both sides, and each exit of one of the others
  -- ends both
  induction entries generalizing report with
  | nil => rfl
  | cons entry entries ih =>
    rw [VerifyReport.extend]
    cases hstem : VerifyReport.stem? entry with
    | none => rw [List.filterMap_cons_none hstem, ih]
    | some s =>
      obtain ⟨rfl, -⟩ := VerifyReport.stem?_eq_some_iff.1 hstem
      rw [List.filterMap_cons_some hstem]
      simp only [VerifyReport.gather_cons]
      rw [outcome_bind, outcome_openRead, Path.join_assoc, examined]
      cases d.open? ((base.join dir).join (fileName s)) with
      | none => rfl
      | some opened =>
        simp only [Option.elim_some]
        by_cases hroom : buffer < Size.bufferLimit
        swap
        · rw [if_neg hroom, if_neg hroom]
          rfl
        rw [if_pos hroom, if_pos hroom]
        simp only
        rw [outcome_bind, outcome_mk]
        cases VerifyReport.check s opened with
        | error stop => rfl
        | ok n =>
          simp only [Except.bind]
          rw [outcome_bind, outcome_mk]
          cases report.add s n with
          | error stop => rfl
          | ok report => exact ih report

/-- A directory is listed by its names, and where nothing stands there is nothing to list. -/
theorem outcome_list (buffer : Nat) (base p : Path) (d : Disk) :
    d.outcome ((Storage.below base buffer).list p) = (match d.kind? (base.join p) with
      | none => .ok []
      | some .file => .error (.failed (.storeOpen (base.join p) .notDirectory))
      | some .directory => .ok (d.names (base.join p)), d) := by
  rw [Storage.below, outcome_bind_ok (outcome_always d _), run_kind?]
  cases d.kind? (base.join p) with
  | none => rfl
  | some kind => cases kind <;> rfl

/-- A directory is checked by going through the weight files that it shows. -/
theorem outcome_ofDirectory (buffer : Nat) (h : d.kind? (base.join dir) = some .directory) :
    d.outcome (VerifyReport.ofDirectory (Storage.below base buffer) dir) =
      (VerifyReport.gather (d.examined buffer (base.join dir)) (d.shown (base.join dir)) {},
        d) := by
  have hlist := outcome_list buffer base dir d
  rw [h] at hlist
  have hcontains : d.outcome ((Storage.below base buffer).contains dir) = _ := outcome_contains rfl
  rw [h] at hcontains
  rw [VerifyReport.ofDirectory, outcome_bind_ok hcontains]
  simp only [Option.isSome_some, Bool.not_true, Bool.false_eq_true, if_false]
  rw [outcome_bind_ok hlist, outcome_extend, shown]

/-- Where there is no directory to be checked, the check fails and changes nothing. -/
theorem outcome_ofDirectory_of_ne (buffer : Nat)
    (h : d.kind? (base.join dir) ≠ some .directory) : ∃ stop,
      d.outcome (VerifyReport.ofDirectory (Storage.below base buffer) dir) = (.error stop, d) := by
  have hlist := outcome_list buffer base dir d
  have hcontains : d.outcome ((Storage.below base buffer).contains dir) = _ := outcome_contains rfl
  rw [VerifyReport.ofDirectory, outcome_bind_ok hcontains]
  cases hkind : d.kind? (base.join dir) with
  | none => exact ⟨_, rfl⟩
  | some kind =>
    cases kind with
    | directory => exact absurd hkind h
    | file =>
      rw [hkind] at hlist
      simp only [Option.isSome_some, Bool.not_true, Bool.false_eq_true, if_false]
      exact ⟨_, outcome_bind_error hlist _⟩

section Answers

variable {report : VerifyReport}

/-- A check passes if every weight file is sound, and then it reports all of them. -/
theorem outcome_ofDirectory_eq_ok_iff (h : d.kind? (base.join dir) = some .directory) :
    (d.outcome (VerifyReport.ofDirectory (Storage.below base buffer) dir)).1 = .ok report ↔
      (∀ s ∈ d.shown (base.join dir), d.Sound buffer (base.join dir) s) ∧
        ((d.shown (base.join dir)).map (d.payload (base.join dir))).sum < Size.limit ∧
          report = ⟨d.shown (base.join dir),
            ((d.shown (base.join dir)).map (d.payload (base.join dir))).sum⟩ := by
  rw [outcome_ofDirectory buffer h,
    VerifyReport.gather_eq_ok_iff eq_payload_of_examined (by decide)]
  simp only [sound_iff, Nat.zero_add, List.nil_append]

/-- Where every weight file is sound, the bytes together decide. -/
theorem outcome_ofDirectory_of_sound (h : d.kind? (base.join dir) = some .directory)
    (hsound : ∀ s ∈ d.shown (base.join dir), d.Sound buffer (base.join dir) s) :
    let total := ((d.shown (base.join dir)).map (d.payload (base.join dir))).sum
    d.outcome (VerifyReport.ofDirectory (Storage.below base buffer) dir) =
      (if total < Size.limit then .ok ⟨d.shown (base.join dir), total⟩ else .error .overflow,
        d) := by
  intro total
  have hgood : ∀ s ∈ d.shown (base.join dir),
      d.examined buffer (base.join dir) s = .ok (d.payload (base.join dir) s) := fun s hs =>
    examined_of_sound (hsound s hs)
  have hzero : ({} : VerifyReport).payloadBytes + total = total := Nat.zero_add total
  rw [outcome_ofDirectory buffer h]
  by_cases htotal : total < Size.limit
  · rw [if_pos htotal]
    refine Prod.ext ((VerifyReport.gather_eq_ok_iff eq_payload_of_examined (by decide)).2
      ⟨hgood, ?_, ?_⟩) rfl
    · rwa [hzero]
    · rw [hzero]
      rfl
  · rw [if_neg htotal, VerifyReport.gather_of_full eq_payload_of_examined (by decide) hgood]
    rw [hzero]
    exact Nat.not_lt.1 htotal

/-- A check stops at the first weight file that is not sound, or with which there are too many
bytes. -/
theorem outcome_ofDirectory_eq_error_iff (h : d.kind? (base.join dir) = some .directory) :
    (d.outcome (VerifyReport.ofDirectory (Storage.below base buffer) dir)).1 = .error stop ↔
      ∃ front s back, d.shown (base.join dir) = front ++ s :: back ∧
        (∀ t ∈ front, d.Sound buffer (base.join dir) t) ∧
          (front.map (d.payload (base.join dir))).sum < Size.limit ∧
            (d.Fault buffer (base.join dir) s stop ∨
              stop = .overflow ∧ d.Sound buffer (base.join dir) s ∧
              Size.limit ≤ (front.map (d.payload (base.join dir))).sum +
                d.payload (base.join dir) s) := by
  rw [outcome_ofDirectory buffer h,
    VerifyReport.gather_eq_error_iff eq_payload_of_examined (by decide)]
  simp only [sound_iff, Nat.zero_add, VerifyReport.Stops, ← examined_eq_error_iff]
  refine exists_congr fun front => exists_congr fun s => exists_congr fun back =>
    and_congr_right fun _ => and_congr_right fun _ => and_congr_right fun _ =>
      or_congr_right <| and_congr_right fun _ => ?_
  constructor
  · rintro ⟨n, hn, hfull⟩
    obtain ⟨-, rfl⟩ := examined_eq_ok_iff.1 hn
    exact ⟨hn, hfull⟩
  · rintro ⟨hs, hfull⟩
    exact ⟨_, hs, hfull⟩

end Answers

/-- **What is wrong with a weight file is reported.** The decoder says that bytes are missing
exactly where bytes are missing that a buffer could hold, and it gives up on a header that asks for
more. The check of a directory, whatever is in it, passes exactly if all its weight files are sound
and their bytes together are a size. Otherwise the first file for which this fails decides on the
answer. -/
theorem malformed_reported (bytes : Bytes) (d : Disk) (buffer : Nat) (base dir : Path)
    (hdir : d.kind? (base.join dir) = some .directory) :
    ((decode bytes = .error .cutShort ↔ Incomplete bytes) ∧
      (decode bytes = .error .overflow ↔ Oversized bytes)) ∧
    let p := base.join dir
    let answer := (d.outcome (VerifyReport.ofDirectory (Storage.below base buffer) dir)).1
    ((∃ report, answer = .ok report) ↔ (∀ s ∈ d.shown p, d.Sound buffer p s) ∧
      ((d.shown p).map (d.payload p)).sum < Size.limit) ∧
    ∀ stop, answer = .error stop ↔ ∃ front s back, d.shown p = front ++ s :: back ∧
      (∀ t ∈ front, d.Sound buffer p t) ∧ (front.map (d.payload p)).sum < Size.limit ∧
        (d.Fault buffer p s stop ∨ stop = .overflow ∧ d.Sound buffer p s ∧
          Size.limit ≤ (front.map (d.payload p)).sum + d.payload p s) := by
  refine ⟨⟨decode_eq_cutShort_iff, decode_eq_overflow_iff⟩, ?_⟩
  intro p answer
  refine ⟨?_, fun stop => outcome_ofDirectory_eq_error_iff hdir⟩
  constructor
  · rintro ⟨report, hreport⟩
    obtain ⟨hsound, hroom, -⟩ := (outcome_ofDirectory_eq_ok_iff hdir).1 hreport
    exact ⟨hsound, hroom⟩
  · rintro ⟨hsound, hroom⟩
    exact ⟨_, (outcome_ofDirectory_eq_ok_iff hdir).2 ⟨hsound, hroom, rfl⟩⟩

/-- A header with the largest lengths there are, and nothing behind it. -/
def vast : Bytes := List.replicate headerLength 255

/-- A directory with a weight file of one element and one that consists of that header. -/
def untrusted : Disk :=
  { blank with tree := ((FileTree.empty.insert ["out"] .directory).insert
      ["a.bin", "out"] (.file (encode ⟨⟨1, 1, 1⟩⟩ [7]))).insert ["x.bin", "out"] (.file vast) }

theorem malformed_reported_untrusted :
    untrusted.kind? (Path.join "." "out") = some .directory ∧
      decode vast = .error .overflow ∧
      (untrusted.outcome (VerifyReport.ofDirectory belowHere "out")).1 =
        .error .overflow := by
  have hroom : Size.defaultBuffer < Size.bufferLimit := by decide
  have hkind : untrusted.kind? (Path.join "." "out") = some .directory := by decide +kernel
  let header : Header := ⟨⟨4294967295, 4294967295, 4294967295⟩⟩
  have hvast : vast = header.toBytes ++ [] := by decide
  have hsize : Size.limit ≤ header.count * 4 := by decide
  have hsound : untrusted.Sound Size.defaultBuffer (Path.join "." "out") "a" :=
    ⟨hroom, encode ⟨⟨1, 1, 1⟩⟩ [7], ⟨⟨⟨1, 1, 1⟩⟩, [7]⟩, by decide +kernel, by decide +kernel⟩
  have hopen : untrusted.open? ((Path.join "." "out").join (fileName "x")) =
      some (.file (header.toBytes ++ [])) := by
    rw [← hvast]
    decide +kernel
  obtain ⟨⟨-, hread⟩, -, hcheck⟩ := malformed_reported vast untrusted Size.defaultBuffer "." "out"
    hkind
  refine ⟨hkind, hread.2 ⟨header, [], hvast, .inl hsize⟩, ?_⟩
  refine (hcheck .overflow).2
    ⟨["a"], "x", [], by decide +kernel, ?_, by decide +kernel,
      .inl (.vast hroom header [] hopen hsize)⟩
  intro t ht
  obtain rfl := List.mem_singleton.1 ht
  exact hsound

/-! ## What the paths lead to -/

/-- The tensor that the weight file of a name in a directory is read back as. -/
def filed (d : Disk) (l : Location) (name : String) : Option CanonicalTensor :=
  match d.tree.find? (fileName name :: l) with
  | some (.file bytes) =>
    match WeightFile.decode bytes with
    | .ok (content, []) => some ⟨content.header.lengths, content.data⟩
    | _ => none
  | _ => none

/-- The tensor that the weight file of a name in the directory at a path is read back as. -/
def decoded (d : Disk) (p : Path) (s : String) : Option CanonicalTensor :=
  match d.locate p with
  | .error _ => none
  | .ok l => d.filed l s

/-- The number of bytes of the file at a location. -/
def fileLength (d : Disk) (l : Location) : Nat :=
  match d.tree.find? l with
  | some (.file content) => content.length
  | _ => 0

namespace DirAt

variable (h : d.DirAt p l) (hx : Path.IsName (fileName s))

include h

/-- The names at a path are those of the directory to which it leads. -/
theorem names_eq : d.names p = d.tree.names l := by
  simp only [names, h.found, h.stands, if_true]

/-- What is decoded through the path is what is filed in the directory. -/
theorem decoded_eq : d.decoded p s = d.filed l s := by
  simp only [decoded, h.found]

/-- The names that are shown are read off from the tree. -/
theorem mem_shown_iff :
    s ∈ d.shown p ↔ VerifyReport.Shown s ∧ fileName s ∈ d.tree.names l := by
  rw [mem_shown, h.names_eq]

include hx

/-- A file opens if its path can be followed and it stands in the tree. -/
theorem open?_eq_some_iff {content : Bytes} :
    d.open? (p.join (fileName s)) = some (.file content) ↔
      d.TakesEntry p (fileName s) ∧ d.tree.find? (fileName s :: l) = some (.file content) := by
  rw [← find?_join_eq_some_iff h hx, open?]
  cases d.find? (p.join (fileName s)) with
  | none => simp
  | some entry => cases entry <;> simp

/-- A weight file is sound if its path can be followed and the directory has, under its name, a file
that can be decoded. -/
theorem sound_iff :
    d.Sound buffer p s ↔
      buffer < Size.bufferLimit ∧ d.TakesEntry p (fileName s) ∧ (d.decoded p s).isSome := by
  rw [h.decoded_eq, filed]
  constructor
  · rintro ⟨hroom, content, read, hopen, hread⟩
    obtain ⟨htakes, hfile⟩ := (h.open?_eq_some_iff hx).1 hopen
    simp only [hfile, hread]
    exact ⟨hroom, htakes, rfl⟩
  · rintro ⟨hroom, htakes, hfiled⟩
    split at hfiled
    · rename_i content hfile
      split at hfiled
      · rename_i read hread
        exact ⟨hroom, content, read, (h.open?_eq_some_iff hx).2 ⟨htakes, hfile⟩, hread⟩
      · exact absurd hfiled (by simp)
    · exact absurd hfiled (by simp)

/-- The payload of a sound file is its length without the header. -/
theorem payload_eq_fileLength (hs : d.Sound buffer p s) :
    d.payload p s = d.fileLength (fileName s :: l) - headerLength := by
  obtain ⟨-, content, read, hopen, -⟩ := hs
  obtain ⟨-, hfile⟩ := (h.open?_eq_some_iff hx).1 hopen
  rw [payload_of_file hopen, fileLength, hfile]

end DirAt

/-- A directory with a weight file of one element, a hidden file and a file of another kind. -/
def assorted : Disk :=
  { blank with tree := (((FileTree.empty.insert ["out"] .directory).insert
      ["a.bin", "out"] (.file (encode ⟨⟨1, 1, 1⟩⟩ [7]))).insert
      [".b.bin", "out"] (.file [1, 2])).insert ["notes.txt", "out"] (.file [3]) }

end Disk

end FlatWeights
