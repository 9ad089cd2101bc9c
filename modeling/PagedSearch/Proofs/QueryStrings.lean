import PagedSearch.Proofs.Narrowing
import PagedSearch.Request.Form

/-!
# Query strings

A client that wants a search writes keys and values in the `application/x-www-form-urlencoded`
format: the bytes of each text are written as characters, most of them as a `%` with two digits, and
spaces as a `+`.  So no text contains the `&` and the `=` that are put between them.  What is read
is what was written, and of several values with one key the first.

## Main definitions

* `Form.writeComponent`, `Form.writeForm` — texts and pairs of texts as they are written.
* `QueryValues.first?` — the value that counts for a key.

## Main results

* `Text.decodeLossy_utf8Bytes` — the bytes of a text are read as the text.
* `Form.decodeComponent_writeComponent`, `Form.parseForm_writeForm` — what is written is read back.
* `SearchRequest.read_eq_ok` — the filters and the fields to sort by that come from a client.
* `writeForm_reaches` — the parameters that a client writes reach the search as they are.
-/

namespace PagedSearch

/-! ### Bytes of texts -/

namespace Text

/-- The bytes of a character are those of UTF-8. -/
theorem utf8Char_eq (c : Char) : utf8Char c = (String.utf8EncodeChar c).map UInt8.toNat := by
  have hvalid : c.toNat < 0xd800 ∨ 0xdfff < c.toNat ∧ c.toNat < 0x110000 := c.valid
  have hval : c.val.toNat = c.toNat := rfl
  unfold utf8Char String.utf8EncodeChar
  simp only [hval]
  generalize c.toNat = n at *
  split_ifs <;> simp <;> omega

theorem decodeFrom_start {byte : Nat} {pending : Pending} (hascii : 0x80 ≤ byte)
    (h : pendingAfter? byte = some pending) (bytes : List Nat) :
    decodeFrom none (byte :: bytes) = decodeFrom (some pending) bytes := by
  rw [decodeFrom, startByte, if_neg (Nat.not_lt.mpr hascii), h]
  rfl

theorem decodeFrom_next {missing least greatest code byte : Nat} (hleast : least ≤ byte)
    (hgreatest : byte ≤ greatest) (bytes : List Nat) :
    decodeFrom (some ⟨missing + 2, least, greatest, code⟩) (byte :: bytes) =
      decodeFrom (some ⟨missing + 1, 0x80, 0xbf, 64 * code + (byte - 0x80)⟩) bytes := by
  rw [decodeFrom, nextByte, if_pos ⟨hleast, hgreatest⟩]
  rfl

theorem decodeFrom_last {least greatest code byte : Nat} (hleast : least ≤ byte)
    (hgreatest : byte ≤ greatest) (bytes : List Nat) :
    decodeFrom (some ⟨1, least, greatest, code⟩) (byte :: bytes) =
      Char.ofNat (64 * code + (byte - 0x80)) :: decodeFrom none bytes := by
  rw [decodeFrom, nextByte, if_pos ⟨hleast, hgreatest⟩]
  rfl

/-- The first byte of two. -/
theorem pendingAfter?_two :
    ∀ lead < 0x20, 2 ≤ lead → pendingAfter? (0xc0 + lead) = some ⟨1, 0x80, 0xbf, lead⟩ := by
  decide

/-- The first byte of three.  Behind the least one the code would be too small for three bytes, and
behind `0xed` it could be half of a pair of codes for one character. -/
theorem pendingAfter?_three :
    ∀ lead < 0x10, pendingAfter? (0xe0 + lead) =
      some ⟨2, if lead = 0 then 0xa0 else 0x80, if lead = 0xd then 0x9f else 0xbf, lead⟩ := by
  decide

/-- The first byte of four.  Behind the greatest one the code could be too great. -/
theorem pendingAfter?_four :
    ∀ lead < 5, pendingAfter? (0xf0 + lead) =
      some ⟨3, if lead = 0 then 0x90 else 0x80, if lead = 4 then 0x8f else 0xbf, lead⟩ := by
  decide

/-- The bytes of a character are read as the character. -/
theorem decodeFrom_utf8Char (c : Char) (bytes : List Nat) :
    decodeFrom none (utf8Char c ++ bytes) = c :: decodeFrom none bytes := by
  have hvalid : c.toNat < 0xd800 ∨ 0xdfff < c.toNat ∧ c.toNat < 0x110000 := c.valid
  have hof : Char.ofNat c.toNat = c := Char.ofNat_toNat c
  unfold utf8Char
  generalize c.toNat = n at *
  dsimp only
  split
  · rename_i hascii
    rw [List.singleton_append, decodeFrom, startByte, if_pos hascii, hof]
    rfl
  split
  · have hcode : 64 * (n / 64) + (0x80 + n % 64 - 0x80) = n := by omega
    rw [List.cons_append, List.cons_append, List.nil_append,
      decodeFrom_start (by omega) (pendingAfter?_two (n / 64) (by omega) (by omega)),
      decodeFrom_last (by omega) (by omega), hcode, hof]
  split
  · have hcode : 64 * (64 * (n / 4096) + (0x80 + n / 64 % 64 - 0x80)) +
        (0x80 + n % 64 - 0x80) = n := by omega
    rw [List.cons_append, List.cons_append, List.cons_append, List.nil_append,
      decodeFrom_start (by omega) (pendingAfter?_three (n / 4096) (by omega)),
      decodeFrom_next (by split <;> omega) (by split <;> omega),
      decodeFrom_last (by omega) (by omega), hcode, hof]
  · have hcode : 64 * (64 * (64 * (n / 262144) + (0x80 + n / 4096 % 64 - 0x80)) +
        (0x80 + n / 64 % 64 - 0x80)) + (0x80 + n % 64 - 0x80) = n := by omega
    rw [List.cons_append, List.cons_append, List.cons_append, List.cons_append, List.nil_append,
      decodeFrom_start (by omega) (pendingAfter?_four (n / 262144) (by omega)),
      decodeFrom_next (by split <;> omega) (by split <;> omega),
      decodeFrom_next (by omega) (by omega), decodeFrom_last (by omega) (by omega), hcode, hof]

/-- The bytes of a text are read as the text. -/
theorem decodeLossy_utf8Bytes (text : List Char) : decodeLossy (utf8Bytes text) = text := by
  unfold decodeLossy utf8Bytes
  induction text with
  | nil => rfl
  | cons c text ih => rw [List.flatMap_cons, decodeFrom_utf8Char, ih]

end Text

/-! ### Components -/

namespace Form

/-- Whether a byte is written as the character with its code. -/
def isKept (byte : Nat) : Bool :=
  byte < 0x80 && ((Char.ofNat byte).isAlphanum || ['*', '-', '.', '_'].contains (Char.ofNat byte))

/-- A digit in base 16, in upper case. -/
def hexDigit (n : Nat) : Char := Char.ofNat (if n < 10 then 0x30 + n else 0x37 + n)

/-- A byte as it is written. -/
def writeByte (byte : Nat) : List Char :=
  if byte = 0x20 then ['+']
  else if isKept byte then [Char.ofNat byte]
  else ['%', hexDigit (byte / 16), hexDigit (byte % 16)]

/-- A key or a value as it is written. -/
def writeComponent (text : String) : List Char :=
  ((text.toList.flatMap String.utf8EncodeChar).map UInt8.toNat).flatMap writeByte

/-- A key and a value as they are written. -/
def writePair (pair : String × String) : List Char :=
  writeComponent pair.1 ++ '=' :: writeComponent pair.2

/-- Keys and values as they are written. -/
def writeForm (pairs : List (String × String)) : String :=
  String.ofList (['&'].intercalate (pairs.map writePair))

theorem writeComponent_eq (text : String) :
    writeComponent text = (Text.utf8Bytes text.toList).flatMap writeByte := by
  have hchar : Text.utf8Char = fun c => (String.utf8EncodeChar c).map UInt8.toNat :=
    funext Text.utf8Char_eq
  rw [writeComponent, List.map_flatMap, Text.utf8Bytes, hchar]

theorem lt_of_mem_utf8Bytes {text : List Char} {byte : Nat} (h : byte ∈ Text.utf8Bytes text) :
    byte < 0x100 := by
  obtain ⟨c, -, hbyte⟩ := List.mem_flatMap.mp h
  rw [Text.utf8Char_eq] at hbyte
  obtain ⟨word, -, rfl⟩ := List.mem_map.mp hbyte
  exact word.toNat_lt

/-- No byte is written with a character that has a meaning of its own in a query string. -/
theorem special_notMem_writeByte :
    ∀ byte < 0x100, '&' ∉ writeByte byte ∧ '=' ∉ writeByte byte ∧ '?' ∉ writeByte byte := by
  decide +kernel

theorem special_notMem_writeComponent (text : String) :
    '&' ∉ writeComponent text ∧ '=' ∉ writeComponent text ∧ '?' ∉ writeComponent text := by
  simp only [writeComponent_eq, List.mem_flatMap, not_exists, not_and]
  exact ⟨fun byte hbyte => (special_notMem_writeByte byte (lt_of_mem_utf8Bytes hbyte)).1,
    fun byte hbyte => (special_notMem_writeByte byte (lt_of_mem_utf8Bytes hbyte)).2.1,
    fun byte hbyte => (special_notMem_writeByte byte (lt_of_mem_utf8Bytes hbyte)).2.2⟩

/-- The bytes of the characters that a byte is written with, once each `+` is a space again. -/
def writtenBytes (byte : Nat) : List Nat :=
  Text.utf8Bytes ((writeByte byte).map fun c => if c = '+' then ' ' else c)

/-- A byte is written as itself, or as a `%` and its digits in base 16. -/
theorem writtenBytes_cases :
    ∀ byte < 0x100, (writtenBytes byte = [byte] ∧ byte ≠ 0x25) ∨
      writtenBytes byte =
        [0x25, (hexDigit (byte / 16)).toNat, (hexDigit (byte % 16)).toNat] := by
  decide +kernel

theorem hexValue?_hexDigit : ∀ n < 16, Text.hexValue? (hexDigit n) = some n := by
  decide

theorem percentDecode_cons_of_ne {byte : Nat} (h : byte ≠ 0x25) (bytes : List Nat) :
    percentDecode (byte :: bytes) = byte :: percentDecode bytes := by
  rw [percentDecode.eq_def]
  split
  · rename_i heq
    exact absurd (List.cons.inj heq).1 h
  · rename_i heq
    obtain ⟨rfl, rfl⟩ := List.cons.inj heq
    rfl
  · rename_i heq
    cases heq

/-- The bytes that a byte is written with are read as the byte. -/
theorem percentDecode_writtenBytes {byte : Nat} (h : byte < 0x100) (bytes : List Nat) :
    percentDecode (writtenBytes byte ++ bytes) = byte :: percentDecode bytes := by
  rcases writtenBytes_cases byte h with ⟨hwritten, hne⟩ | hwritten
  · rw [hwritten, List.singleton_append, percentDecode_cons_of_ne hne]
  · have hhigh := hexValue?_hexDigit (byte / 16) (by omega)
    have hlow := hexValue?_hexDigit (byte % 16) (by omega)
    have hbyte : 16 * (byte / 16) + byte % 16 = byte := by omega
    rw [hwritten, List.cons_append, List.cons_append, List.cons_append, List.nil_append,
      percentDecode, Char.ofNat_toNat, Char.ofNat_toNat, hhigh, hlow]
    dsimp only
    rw [hbyte]

/-- A key or a value is read as it was before it was written. -/
theorem decodeComponent_writeComponent (text : String) :
    decodeComponent (writeComponent text) = text.toList := by
  have hwritten (bytes : List Nat) (hbytes : ∀ byte ∈ bytes, byte < 0x100) :
      percentDecode (Text.utf8Bytes
        ((bytes.flatMap writeByte).map fun c => if c = '+' then ' ' else c)) = bytes := by
    induction bytes with
    | nil => rfl
    | cons byte bytes ih =>
      obtain ⟨hbyte, hbytes⟩ := List.forall_mem_cons.mp hbytes
      rw [List.flatMap_cons, List.map_append, Text.utf8Bytes, List.flatMap_append,
        ← Text.utf8Bytes, ← Text.utf8Bytes, ← writtenBytes, percentDecode_writtenBytes hbyte,
        ih hbytes]
  rw [decodeComponent, writeComponent_eq, hwritten _ fun _ => lt_of_mem_utf8Bytes,
    Text.decodeLossy_utf8Bytes]

/-! ### Pairs -/

/-- A pair is read as it was written, since its key ends at the first `=`. -/
theorem parsePair_writePair (pair : String × String) : parsePair (writePair pair) = pair := by
  have hkey : (writePair pair).takeWhile (· ≠ '=') = writeComponent pair.1 := by
    have hall : ∀ c ∈ writeComponent pair.1, decide (c ≠ '=') = true := by
      intro c hc
      refine decide_eq_true fun heq => (special_notMem_writeComponent pair.1).2.1 ?_
      rwa [heq] at hc
    rw [writePair, List.takeWhile_append_of_pos hall, List.takeWhile_cons_of_neg (by decide),
      List.append_nil]
  rw [parsePair, hkey, writePair, List.drop_left, List.drop_succ_cons, List.drop_zero,
    decodeComponent_writeComponent, decodeComponent_writeComponent, String.ofList_toList,
    String.ofList_toList]

/-- **What is written is read back.** -/
theorem parseForm_writeForm (pairs : List (String × String)) :
    parseForm (writeForm pairs) = pairs := by
  rw [parseForm, writeForm, String.toList_ofList]
  cases pairs with
  | nil => rfl
  | cons pair pairs =>
    have hsplit : Text.split '&' (['&'].intercalate ((pair :: pairs).map writePair)) =
        (pair :: pairs).map writePair := by
      refine Text.split_intercalate (by simp) fun part hpart => ?_
      obtain ⟨written, -, rfl⟩ := List.mem_map.mp hpart
      have hkey := (special_notMem_writeComponent written.1).1
      have hvalue := (special_notMem_writeComponent written.2).1
      simp [writePair, hkey, hvalue]
    have hfilled : ((pair :: pairs).map writePair).filter (!·.isEmpty) =
        (pair :: pairs).map writePair := by
      refine List.filter_eq_self.mpr fun part hpart => ?_
      obtain ⟨written, -, rfl⟩ := List.mem_map.mp hpart
      simp [writePair]
    rw [hsplit, hfilled, List.map_map]
    exact List.map_id'' parsePair_writePair _

/-- No query string that is written starts with a question mark. -/
theorem head?_writeForm (pairs : List (String × String)) :
    (writeForm pairs).toList.head? ≠ some '?' := by
  rw [writeForm, String.toList_ofList]
  cases pairs with
  | nil => simp
  | cons pair pairs =>
    obtain ⟨rest, hrest⟩ :
        ∃ rest, ['&'].intercalate ((pair :: pairs).map writePair) = writePair pair ++ rest := by
      cases pairs with
      | nil => exact ⟨[], by simp⟩
      | cons next pairs => exact ⟨_, by simp [List.intercalate_cons_cons]; rfl⟩
    have hquestion := (special_notMem_writeComponent pair.1).2.2
    rw [hrest, writePair]
    cases hkey : writeComponent pair.1 with
    | nil => simp
    | cons c key =>
      rw [hkey] at hquestion
      simpa using fun heq : c = '?' => hquestion (heq ▸ List.mem_cons_self)

end Form

/-! ### Parameters -/

namespace QueryValues

/-- The value that counts for a key: that of the first pair with it. -/
def first? (pairs : List (String × String)) (key : String) : Option String :=
  (pairs.find? fun pair => pair.1 = key).map Prod.snd

theorem lookup_eq_first? (pairs : List (String × String)) (key : String) :
    pairs.lookup key = first? pairs key := by
  induction pairs with
  | nil => rfl
  | cons pair pairs ih =>
    obtain ⟨name, value⟩ := pair
    unfold first? at *
    by_cases hname : name = key
    · simp [hname]
    · have hother : (key == name) = false := by simpa using Ne.symm hname
      rw [List.lookup_cons, hother, List.find?_cons_of_neg (by simpa using hname), ← ih]

theorem withoutMark_writeForm (pairs : List (String × String)) :
    withoutMark (Form.writeForm pairs) = Form.writeForm pairs := by
  have hhead := Form.head?_writeForm pairs
  unfold withoutMark
  split
  · rename_i heq
    rw [heq] at hhead
    exact absurd rfl hhead
  · rfl

theorem withoutMark_mark (query : String) : withoutMark ("?" ++ query) = query := by
  have hmark : ("?" ++ query).toList = '?' :: query.toList := by
    rw [String.toList_append]
    rfl
  rw [withoutMark, hmark]
  exact String.ofList_toList

/-- The values that count among those that a client writes. -/
def written (pairs : List (String × String)) : QueryValues where
  page := first? pairs "page"
  perPage := first? pairs "perPage"
  sort := first? pairs "sort"
  filter := first? pairs "filter"
  skipTotal := first? pairs "skipTotal"

theorem ofPairs_eq_written (pairs : List (String × String)) : ofPairs pairs = written pairs := by
  simp only [ofPairs, lookup_eq_first?]
  rfl

theorem ofQuery_writeForm (pairs : List (String × String)) :
    ofQuery (Form.writeForm pairs) = written pairs := by
  rw [ofQuery, withoutMark_writeForm, Form.parseForm_writeForm, ofPairs_eq_written]

theorem ofQuery_mark (query : String) (h : withoutMark query = query) :
    ofQuery ("?" ++ query) = ofQuery query := by
  rw [ofQuery, withoutMark_mark, ofQuery, h]

end QueryValues

namespace SearchRequest

variable {request later : SearchRequest} {values : QueryValues}

/-- The fields to sort by that a parameter adds to a request. -/
def addedSort (param : QueryParam) (value : String) : List SortField :=
  match param with
  | .sort => SortField.parseList value
  | _ => []

theorem sort_eq_of_set {param : QueryParam} {value : String}
    (h : request.set param value = .ok later) :
    later.sort = request.sort ++ addedSort param value := by
  cases param with
  | page | perPage | skipTotal =>
    -- They are read before they are set, and they set something else.
    obtain ⟨value, -, h⟩ := bind_eq_ok.mp h
    obtain rfl := Except.ok.inj h
    exact (List.append_nil _).symm
  | sort =>
    obtain rfl := Except.ok.inj h
    rfl
  | filter =>
    obtain rfl := Except.ok.inj h
    exact (List.append_nil _).symm

/-- What some parameters that can all be read add to a request. -/
theorem readParams_eq_ok {params : List QueryParam}
    (h : readParams values request params = (later, .ok ())) :
    later.filters = request.filters ++
        params.flatMap (fun param => (values.present? param).elim [] (addedFilter param)) ∧
      later.sort = request.sort ++
        params.flatMap (fun param => (values.present? param).elim [] (addedSort param)) := by
  induction params generalizing request with
  | nil =>
    obtain rfl := (Prod.mk.inj h).1
    simp
  | cons param params ih =>
    rw [readParams] at h
    split at h
    · rename_i habsent
      simpa [List.flatMap_cons, habsent] using ih h
    · rename_i value hpresent
      split at h
      · rename_i next hset
        obtain ⟨hfilters, hsort⟩ := ih h
        rw [hfilters, hsort, (extends_of_set hset).filters_eq, sort_eq_of_set hset]
        simp [List.flatMap_cons, hpresent]
      · cases (Prod.mk.inj h).2

/-- The filter and the fields to sort by of a client come behind those that are set. -/
theorem read_eq_ok (h : request.read values = (later, .ok ())) :
    later.filters = request.filters ++ (values.present? .filter).toList ∧
      later.sort = request.sort ++ (values.present? .sort).elim [] SortField.parseList := by
  have hnothing {α : Type} (value : Option String) :
      value.elim ([] : List α) (fun _ => []) = [] := by
    cases value <;> rfl
  have hone (value : Option String) : value.elim [] (fun text => [text]) = value.toList := by
    cases value <;> rfl
  obtain ⟨hfilters, hsort⟩ := readParams_eq_ok h
  rw [hfilters, hsort]
  unfold QueryParam.all addedFilter addedSort
  simp only [List.flatMap_cons, List.flatMap_nil, hnothing, hone, List.nil_append, List.append_nil]
  exact ⟨trivial, trivial⟩

end SearchRequest

/-- **The parameters that a client writes reach the search as they are**, whatever their texts are
and whatever else is written, with a question mark in front and without one.  So does the first
filter that is written, and the first list of fields to sort by. -/
theorem writeForm_reaches (pairs : List (String × String)) :
    QueryValues.ofQuery (Form.writeForm pairs) = .written pairs ∧
    QueryValues.ofQuery ("?" ++ Form.writeForm pairs) = .written pairs ∧
    ∀ request later : SearchRequest,
      request.read (.ofQuery (Form.writeForm pairs)) = (later, .ok ()) →
      later.filters = request.filters ++
          ((QueryValues.first? pairs "filter").filter (· ≠ "")).toList ∧
        later.sort = request.sort ++
          ((QueryValues.first? pairs "sort").filter (· ≠ "")).elim [] SortField.parseList := by
  refine ⟨QueryValues.ofQuery_writeForm pairs, ?_, fun request later h => ?_⟩
  · rw [QueryValues.ofQuery_mark _ (QueryValues.withoutMark_writeForm pairs),
      QueryValues.ofQuery_writeForm]
  · rw [QueryValues.ofQuery_writeForm] at h
    exact SearchRequest.read_eq_ok h

/-- A filter with all that has a meaning in a query string, between other pairs. -/
def crowdedPairs : List (String × String) :=
  [("page=1&sort", "a"), ("", ""), ("filter", "a ~ '100% + é & 漢=𝄞?'"), ("sort", "-a,+b"),
    ("filter", "b")]

/-- The filter is read as it was before it was written. -/
theorem crowdedPairs_reach :
    Form.writeForm crowdedPairs = "page%3D1%26sort=a&=&filter=a+%7E+%27100%25+%2B+%C3%A9+%26+" ++
        "%E6%BC%A2%3D%F0%9D%84%9E%3F%27&sort=-a%2C%2Bb&filter=b" ∧
      ∃ later : SearchRequest, SearchRequest.read {} (.ofQuery (Form.writeForm crowdedPairs)) =
          (later, .ok ()) ∧
        later.filters = ["a ~ '100% + é & 漢=𝄞?'"] ∧
        later.sort = [⟨"a", .descending⟩, ⟨"b", .ascending⟩] := by
  obtain ⟨hvalues, -, hreach⟩ := writeForm_reaches crowdedPairs
  have hread : SearchRequest.read {} (.ofQuery (Form.writeForm crowdedPairs)) =
      ({ filters := ["a ~ '100% + é & 漢=𝄞?'"],
         sort := [⟨"a", .descending⟩, ⟨"b", .ascending⟩] }, .ok ()) := by
    rw [hvalues]
    rfl
  obtain ⟨hfilters, hsort⟩ := hreach _ _ hread
  refine ⟨by decide +kernel, _, hread, ?_, ?_⟩
  · rw [hfilters]
    decide
  · rw [hsort]
    decide

end PagedSearch
