import Nl2Sql.Lib.Streaming
import Nl2Sql.Theorems.Truncation

/-!
# The bounds of a streamed result

A result is read row by row, each row is masked before it is counted, and the size of the text so far is kept as one number. What is
returned is all that was read, within both bounds, and the number is the size of its text; a row that breaks a bound ends the reading.
-/

namespace Nl2Sql

open Py Sql

/-- `json.dumps(value, ensure_ascii=False, default=str)`. `str` is what the language makes of a value that JSON does not have; a value of
no known kind has a text of its own. -/
def Cell.dumps (str : Cell → String) : Cell → String
  | .null => "null"
  | .bool true => "true"
  | .bool false => "false"
  | .int n => toString n
  | .str s => Json.quote s
  | .other => str .other
  | cell => Json.quote (str cell)

/-- The text of a row. -/
def dumpsRow (str : Cell → String) (row : ResultRow) : String :=
  "\x7b" ++ ", ".intercalate (row.entries.map fun entry => Json.quote entry.1 ++ ": " ++ entry.2.dumps str) ++ "\x7d"

/-- `row_size`: the length of the text of a row in UTF-8. -/
def rowSize (str : Cell → String) (row : ResultRow) : Nat := (dumpsRow str row).utf8ByteSize

/-- The text of a list of rows. -/
def dumpsRows (str : Cell → String) (rows : List ResultRow) : String := "[" ++ ", ".intercalate (rows.map (dumpsRow str)) ++ "]"

/-- Rows as they are returned. -/
def safeRows (raws : List (List (String × Cell))) : List ResultRow := raws.map fun raw => (maskRow raw).1

/-- Rows within the bounds of a result. -/
structure Within (maxRows maxResultBytes : Nat) (str : Cell → String) (rows : List ResultRow) : Prop where
  count : rows.length ≤ maxRows
  bytes : (dumpsRows str rows).utf8ByteSize ≤ maxResultBytes

/-- A sensitive column of a result. -/
def SensitiveIn (rows : List ResultRow) (key : String) : Prop := isSensitiveColumn key = true ∧ ∃ row ∈ rows, key ∈ row.keys

/-- A row is the one of the database, with a marker for each sensitive value. -/
structure Redacted (raw : List (String × Cell)) (row : ResultRow) : Prop where
  keys : row.keys = (Dict.ofList raw).keys
  hidden : ∀ key ∈ row.keys, isSensitiveColumn key = true → row.get? key = some (.str "[REDACTED]")
  shown : ∀ key ∈ row.keys, isSensitiveColumn key = false → row.get? key = (Dict.ofList raw).get? key

namespace StreamingAux

open TruncationAux

variable {maxRows maxResultBytes : Nat} {str : Cell → String} {rows : List ResultRow}

/-- One more row adds its size, and a separator where it is not the first. -/
theorem size_concat (str : Cell → String) (rows : List ResultRow) (row : ResultRow) :
    (dumpsRows str (rows ++ [row])).utf8ByteSize =
      (dumpsRows str rows).utf8ByteSize + (dumpsRow str row).utf8ByteSize + if rows = [] then 0 else 2 := by
  have hempty : rows.map (dumpsRow str) = [] ↔ rows = [] := List.map_eq_nil_iff
  have hseparator : (", " : String).utf8ByteSize = 2 := rfl
  unfold dumpsRows
  simp only [String.utf8ByteSize_append, List.map_append, List.map_cons, List.map_nil, utf8ByteSize_intercalate_concat, hempty, hseparator]
  omega

/-- Fewer rows stay within the bounds. -/
theorem Within.of_isPrefix {rows' : List ResultRow} (h : Within maxRows maxResultBytes str rows') (hfirst : rows <+: rows') :
    Within maxRows maxResultBytes str rows := by
  refine ⟨hfirst.length_le.trans h.count, le_trans ?_ h.bytes⟩
  have hsize := utf8ByteSize_intercalate_prefix ", " (hfirst.map (dumpsRow str))
  simp only [dumpsRows, String.utf8ByteSize_append]
  omega

/-! ## Masks -/

/-- A masked row, and what was masked of it. -/
theorem maskRow_spec (raw : List (String × Cell)) :
    Redacted raw (maskRow raw).1 ∧ ∀ key, key ∈ (maskRow raw).2 ↔ isSensitiveColumn key = true ∧ key ∈ (maskRow raw).1.keys := by
  have hpairs : ∀ p ∈ ((Dict.ofList raw).keys.filter fun key => isSensitiveColumn key).map fun key => (key, Cell.str "[REDACTED]"),
      p.1 ∈ (Dict.ofList raw).keys ∧ isSensitiveColumn p.1 = true ∧ p.2 = .str "[REDACTED]" := by
    intro p hp
    obtain ⟨key, hkey, rfl⟩ := List.mem_map.mp hp
    exact ⟨(List.mem_filter.mp hkey).1, (List.mem_filter.mp hkey).2, rfl⟩
  have hkeys : (maskRow raw).1.keys = (Dict.ofList raw).keys := keys_update_of_mem fun p hp => (hpairs p hp).1
  refine ⟨⟨hkeys, fun key hkey hsensitive => ?_, fun key hkey hplain => ?_⟩, fun key => ?_⟩
  · have hmem : key ∈ (((Dict.ofList raw).keys.filter fun key => isSensitiveColumn key).map fun key =>
        (key, Cell.str "[REDACTED]")).map Prod.fst := by
      rw [List.map_map]
      exact List.mem_map.mpr ⟨key, List.mem_filter.mpr ⟨hkeys ▸ hkey, hsensitive⟩, rfl⟩
    obtain ⟨value, hvalue, hget⟩ := Dict.get?_update_of_mem hmem (Dict.ofList raw)
    obtain rfl : value = .str "[REDACTED]" := (hpairs _ hvalue).2.2
    exact hget
  · refine Dict.get?_update_of_not_mem (fun hmem => ?_) _
    obtain ⟨p, hp, rfl⟩ := List.mem_map.mp hmem
    rw [(hpairs p hp).2.1] at hplain
    cases hplain
  · rw [hkeys]
    exact List.mem_filter.trans and_comm

/-! ## The loop -/

/-- What holds of what was read so far. -/
structure Reading (maxRows maxResultBytes : Nat) (str : Cell → String) (done : List (List (String × Cell))) (s : StreamState) : Prop where
  rows : s.rows = safeRows done
  size : s.encodedSize = (dumpsRows str s.rows).utf8ByteSize
  within : Within maxRows maxResultBytes str s.rows
  masked : ∀ key, key ∈ s.maskedColumns ↔ SensitiveIn s.rows key
  distinct : s.maskedColumns.Nodup

/-- A row is refused exactly where it breaks a bound, and one that is read keeps what holds. -/
theorem streamRow_spec {done : List (List (String × Cell))} {s : StreamState} (h : Reading maxRows maxResultBytes str done s)
    (raw : List (String × Cell)) :
    (∀ s', streamRow maxRows maxResultBytes (rowSize str) s raw = .ok s' → Reading maxRows maxResultBytes str (done ++ [raw]) s') ∧
      ∀ e, streamRow maxRows maxResultBytes (rowSize str) s raw = .error e →
        ¬ Within maxRows maxResultBytes str (safeRows (done ++ [raw])) ∧
          e = .policy (if maxRows ≤ done.length then
              { code := .rowsExceeded, message := "query returned more rows than the policy limit" }
            else { code := .resultTooLarge, message := "query result exceeds " ++ toString maxResultBytes ++ " bytes" }) := by
  have hsafe : safeRows (done ++ [raw]) = s.rows ++ [(maskRow raw).1] := by
    rw [h.rows]
    exact List.map_append
  have hlength : s.rows.length = done.length := by
    rw [h.rows]
    exact List.length_map _
  have hsize : s.encodedSize + rowSize str (maskRow raw).1 + (if s.rows = [] then 0 else 2) =
      (dumpsRows str (s.rows ++ [(maskRow raw).1])).utf8ByteSize := by
    rw [size_concat, h.size]
    rfl
  unfold streamRow
  dsimp only
  rw [hsize]
  by_cases hcount : maxRows ≤ s.rows.length
  · rw [if_pos hcount]
    refine ⟨nofun, fun e he => ⟨fun hwithin => ?_, ?_⟩⟩
    · have hlong := hwithin.count
      rw [hsafe, List.length_append, List.length_singleton] at hlong
      omega
    · cases he
      rw [if_pos (hlength ▸ hcount)]
  · rw [if_neg hcount]
    by_cases hbytes : maxResultBytes < (dumpsRows str (s.rows ++ [(maskRow raw).1])).utf8ByteSize
    · rw [if_pos hbytes]
      refine ⟨nofun, fun e he => ⟨fun hwithin => ?_, ?_⟩⟩
      · exact absurd (hsafe ▸ hwithin.bytes) (not_le.mpr hbytes)
      · cases he
        rw [if_neg (hlength ▸ hcount)]
    · rw [if_neg hbytes]
      refine ⟨fun s' hs' => ?_, nofun⟩
      cases hs'
      refine ⟨hsafe.symm, rfl, ⟨?_, not_lt.mp hbytes⟩, fun key => ?_, fromKeys_nodup _⟩
      · rw [List.length_append, List.length_singleton]
        omega
      · rw [mem_fromKeys, List.mem_append, h.masked, (maskRow_spec raw).2]
        simp only [SensitiveIn, List.mem_append, List.mem_singleton]
        constructor
        · rintro (⟨hsensitive, row, hrow, hkey⟩ | ⟨hsensitive, hkey⟩)
          · exact ⟨hsensitive, row, .inl hrow, hkey⟩
          · exact ⟨hsensitive, _, .inr rfl, hkey⟩
        · rintro ⟨hsensitive, row, hrow | rfl, hkey⟩
          · exact .inl ⟨hsensitive, row, hrow, hkey⟩
          · exact .inr ⟨hsensitive, hkey⟩

/-- Nothing was read. -/
theorem reading_nil (hbytes : 2 ≤ maxResultBytes) : Reading maxRows maxResultBytes str [] ⟨[], [], 2⟩ :=
  ⟨rfl, rfl, ⟨Nat.zero_le _, hbytes⟩, fun _ => ⟨nofun, fun ⟨_, _, hrow, _⟩ => nomatch hrow⟩, List.nodup_nil⟩

/-- A loop over the rows of a stream reads them all, or ends at the first that breaks a bound. -/
theorem foldlM_streamRow_cases (maxRows : Nat) (str : Cell → String) (hbytes : 2 ≤ maxResultBytes) (raws : List (List (String × Cell))) :
    (∃ s, raws.foldlM (streamRow maxRows maxResultBytes (rowSize str)) ⟨[], [], 2⟩ = .ok s ∧ Reading maxRows maxResultBytes str raws s) ∨
      ∃ done raw rest s e, raws = done ++ raw :: rest ∧ Reading maxRows maxResultBytes str done s ∧
        streamRow maxRows maxResultBytes (rowSize str) s raw = .error e ∧
        raws.foldlM (streamRow maxRows maxResultBytes (rowSize str)) ⟨[], [], 2⟩ = .error e :=
  foldlM_cases (reading_nil hbytes) (fun _ raw _ s' hs hstep => (streamRow_spec hs raw).1 s' hstep) raws

/-- A stream is returned, or ends at the first row that breaks a bound, or fails after its rows. -/
theorem streamInSession_cases (maxRows : Nat) (str : Cell → String) (hbytes : 2 ≤ maxResultBytes) (stream : DatabaseStream) :
    (∃ s, streamInSession maxRows maxResultBytes (rowSize str) stream = .ok s ∧ stream.failure = none ∧
      Reading maxRows maxResultBytes str stream.rows s) ∨
    (∃ done raw rest s e, stream.rows = done ++ raw :: rest ∧ Reading maxRows maxResultBytes str done s ∧
      streamRow maxRows maxResultBytes (rowSize str) s raw = .error e ∧
      streamInSession maxRows maxResultBytes (rowSize str) stream = .error e) ∨
    ∃ s error, Reading maxRows maxResultBytes str stream.rows s ∧ stream.failure = some error ∧
      streamInSession maxRows maxResultBytes (rowSize str) stream = .error (.database error) := by
  rcases foldlM_streamRow_cases maxRows str hbytes stream.rows with ⟨s, hrun, hreading⟩ | ⟨done, raw, rest, s, e, hrows, hreading, he, hrun⟩
  · cases hfailure : stream.failure with
    | none =>
      refine .inl ⟨s, bind_eq_ok.mpr ⟨s, hrun, ?_⟩, rfl, hreading⟩
      rw [hfailure]
    | some error =>
      refine .inr (.inr ⟨s, error, hreading, rfl, bind_eq_error.mpr (.inr ⟨s, hrun, ?_⟩)⟩)
      rw [hfailure]
  · exact .inr (.inl ⟨done, raw, rest, s, e, hrows, hreading, he, bind_eq_error.mpr (.inl hrun)⟩)

end StreamingAux

open StreamingAux

/-- Two rows, the second with a masked value: the marker is what is counted. -/
example : dumpsRows (fun _ => "1.50")
    (safeRows [[("team", .str "north"), ("value", .int 2)], [("team", .null), ("api_Key", .str "k")]]) =
      "[\x7b\"team\": \"north\", \"value\": 2\x7d, \x7b\"team\": null, \"api_Key\": \"[REDACTED]\"\x7d]" := by
  decide +kernel

end Nl2Sql
