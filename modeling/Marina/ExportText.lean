import Marina.FeatureRounds
import Marina.Lib.Delimited
import Marina.SessionExport

/-!
# The exported text

`print_header`, `print_session_five_tuple` and `print_flow_data` of
`controller/export/export_features.c` in the CSV format, and a reader that has nothing but
the header to go by. Text is a list of characters, and every field of a line is followed
by a semicolon.

`print_session_five_tuple` is given the uuid and does not print it, so that every row has
one field less than the header has columns: each field is read under the name of the
column before its own, and the last feature is read from behind the last semicolon.
`exported_text_decodes_iff` shows that the text can be decoded only when there is no row.
-/

namespace Marina

open Lib

/-! ## Formats -/

abbrev Text : Type := List Char

/-- `%lu`. -/
def decimal (n : Nat) : Text := Nat.toDigits 10 n

/-- `%d` and `%ld`. -/
def decimalInt : Int → Text
  | .ofNat n => decimal n
  | .negSucc n => '-' :: decimal (n + 1)

/-- `%09ld` of a number that is not negative. -/
def decimalPadded (n : Nat) : Text := List.replicate (9 - (decimal n).length) '0' ++ decimal n

/-! ## Printing -/

/-- `name` in each `feature_register_t`. -/
def Feature.name : Feature → String
  | .count => "count"
  | .sizeLog => "size_log"
  | .sizeLogSquare => "size_log_square"
  | .sizeLogCube => "size_log_cube"
  | .iatLog => "iat_log"
  | .iatLogSquare => "iat_log_square"
  | .iatLogCube => "iat_log_cube"

/-- What an export reads besides the session table: whether `DEBUG` is defined, the features,
the copy of the uuids, the clock, and `inet_ntop`. -/
structure Export where
  debug : Bool
  onEgress : Feature → Bool
  values : Feature → Int → UInt64
  uuidMapping : Int → Text
  tvSec : Int
  tvNsec : Nat
  inetNtop : L3Proto → Address → Text

/-- The columns that `print_header` names. -/
def headerColumns (debug : Bool) : List Text :=
  ["uuid", "clientIP", "toServer", "firstPacketDPTs", "flowCount"].map String.toList ++
    (if debug then ["session_id", "dev_port"].map String.toList else []) ++
    staticFeaturesArray.map fun feature => feature.name.toList

def Export.printHeader (output : Export) : Text :=
  decimalInt output.tvSec ++ ['.'] ++ decimalPadded output.tvNsec ++ ['\n'] ++
    terminate ';' (headerColumns output.debug) ++ ['\n']

-- The two format strings of the source.
example : terminate ';' ((headerColumns false).take 5) =
    "uuid;clientIP;toServer;firstPacketDPTs;flowCount;".toList := by decide
example : terminate ';' (((headerColumns true).drop 5).take 2) = "session_id;dev_port;".toList := by
  decide

/-- The address of the client. -/
def Export.client (output : Export) (fiveTuple : FiveTuple) : Text :=
  output.inetNtop fiveTuple.h.l3Proto
    (if fiveTuple.sh.toServer then fiveTuple.h.srcAddr else fiveTuple.h.dstAddr)

/-- `%d` of a `bool`. -/
def decimalBool (b : Bool) : Text := decimal b.toNat

/-- The fields of `print_session_five_tuple`, which is given the uuid too. -/
def Export.printSessionFiveTuple (output : Export) (fiveTuple : FiveTuple) (sessionId : Int)
    (_uuid : Text) (flowCount : Int32) : List Text :=
  [output.client fiveTuple, decimalBool fiveTuple.sh.toServer,
      decimal fiveTuple.ingressTs.toNat, decimalInt flowCount.toInt] ++
    if output.debug then [decimalInt sessionId, decimal fiveTuple.devPort.toNat] else []

/-- `features[j]->values[session_id + features[j]->on_egress * session_id_egress_offset]`. -/
def Export.value (output : Export) (fiveTuple : FiveTuple) (sessionId : Int) (feature : Feature) :
    Text :=
  decimal (output.values feature (feature.slot output.onEgress fiveTuple sessionId)).toNat

/-- The fields of a row. -/
def Export.rowFields (output : Export) (row : FlowDataRow) : List Text :=
  output.printSessionFiveTuple row.fiveTuple row.sessionId (output.uuidMapping row.sessionId)
      row.flowCount ++
    staticFeaturesArray.map (output.value row.fiveTuple row.sessionId)

def Export.printFlowData (output : Export) (table : SessionHashtable) : Text :=
  (flowDataRows table).flatMap (fun row => terminate ';' (output.rowFields row) ++ ['\n']) ++ ['\n']

/-! ## Reading -/

/-- The rows of a text, each field with the name of its column. The first line is the time,
the second one the header, and empty lines are skipped. -/
def decodeText (text : Text) : List (List (Text × Text)) :=
  match text.splitOn '\n' with
  | _ :: header :: rows =>
      (rows.filter fun row => row ≠ []).map fun row => (header.splitOn ';').zip (row.splitOn ';')
  | _ => []

/-- What a reader knows of a session. -/
structure SessionRecord where
  uuid : Option Text
  clientIP : Option Text
  toServer : Option Text
  firstPacketDPTs : Option Text
  flowCount : Option Text
  value : Feature → Option Text

def readRecord (fields : List (Text × Text)) : SessionRecord where
  uuid := fields.lookup "uuid".toList
  clientIP := fields.lookup "clientIP".toList
  toServer := fields.lookup "toServer".toList
  firstPacketDPTs := fields.lookup "firstPacketDPTs".toList
  flowCount := fields.lookup "flowCount".toList
  value feature := fields.lookup feature.name.toList

/-- What it should know of a live session. -/
def Export.sessionRecord (output : Export) (table : SessionHashtable) (session : FiveTuple × Int) :
    SessionRecord where
  uuid := some (output.uuidMapping session.2)
  clientIP := some (output.client session.1)
  toServer := some (decimalBool session.1.sh.toServer)
  firstPacketDPTs := some (decimal session.1.ingressTs.toNat)
  flowCount := some (decimalInt (table.flowCount session.2).toInt)
  value feature := some (output.value session.1 session.2 feature)

/-- Reading recovers every live session exactly once. -/
def Export.Decodes (output : Export) (table : SessionHashtable) : Prop :=
  ((decodeText (output.printHeader ++ output.printFlowData table)).map readRecord :
      Multiset SessionRecord) =
    table.bindings.map (output.sessionRecord table)

/-- Neither a field nor a line ends inside the text. -/
def Plain (text : Text) : Prop := ';' ∉ text ∧ '\n' ∉ text

/-! ## Lines and fields -/

theorem plain_of_isDigit {text : Text} (digits : ∀ c ∈ text, c.isDigit = true) : Plain text := by
  constructor
  · intro member
    exact absurd (digits _ member) (by decide)
  · intro member
    exact absurd (digits _ member) (by decide)

theorem isDigit_decimal (n : Nat) : ∀ c ∈ decimal n, c.isDigit = true :=
  fun _ member => Nat.isDigit_of_mem_toDigits (by decide) (by decide) member

theorem plain_decimal (n : Nat) : Plain (decimal n) := plain_of_isDigit (isDigit_decimal n)

theorem decimal_ne_nil (n : Nat) : decimal n ≠ [] := Nat.toDigits_ne_nil

theorem Plain.cons {c : Char} {text : Text} (plain : Plain text) (semicolon : c ≠ ';')
    (newline : c ≠ '\n') : Plain (c :: text) := by
  constructor
  · rw [List.mem_cons, not_or]
    exact ⟨semicolon.symm, plain.1⟩
  · rw [List.mem_cons, not_or]
    exact ⟨newline.symm, plain.2⟩

theorem plain_decimalInt (i : Int) : Plain (decimalInt i) := by
  cases i with
  | ofNat n => exact plain_decimal n
  | negSucc n => exact (plain_decimal (n + 1)).cons (by decide) (by decide)

theorem plain_decimalPadded (n : Nat) : Plain (decimalPadded n) := by
  apply plain_of_isDigit
  intro c member
  rcases List.mem_append.mp member with zero | digit
  · rw [(List.mem_replicate.mp zero).2]
    rfl
  · exact isDigit_decimal n c digit

theorem plain_headerColumns (debug : Bool) : ∀ column ∈ headerColumns debug, Plain column := by
  unfold Plain
  cases debug <;> decide

/-- What a reader makes of a text with a time, a header and rows. -/
theorem decodeText_terminate {time : Text} {columns : List Text} {rows : List (List Text)}
    (timePlain : '\n' ∉ time) (columnsPlain : ∀ column ∈ columns, Plain column)
    (rowsPlain : ∀ row ∈ rows, ∀ field ∈ row, Plain field) (filled : ∀ row ∈ rows, row ≠ []) :
    decodeText (terminate '\n' ([time, terminate ';' columns] ++ rows.map (terminate ';') ++ [[]])) =
      rows.map fun row => (columns ++ [[]]).zip (row ++ [[]]) := by
  have newline : '\n' ≠ ';' := by decide
  have lines : ∀ line ∈ [time, terminate ';' columns] ++ rows.map (terminate ';') ++ [[]],
      '\n' ∉ line := by
    intro line member
    rw [List.mem_append, List.mem_append, List.mem_cons, List.mem_singleton, List.mem_map,
      List.mem_singleton] at member
    rcases member with ((rfl | rfl) | ⟨row, inside, rfl⟩) | rfl
    · exact timePlain
    · exact notMem_terminate newline fun column inside => (columnsPlain column inside).2
    · exact notMem_terminate newline fun field within => (rowsPlain row inside field within).2
    · exact List.not_mem_nil
  have kept : (rows.map (terminate ';') ++ [[]] ++ [[]]).filter (fun row => row ≠ []) =
      rows.map (terminate ';') := by
    have blank : ([[]] : List Text).filter (fun row => row ≠ []) = [] := rfl
    rw [List.filter_append, List.filter_append, List.filter_eq_self.mpr, blank, List.append_nil,
      List.append_nil]
    intro line member
    obtain ⟨row, inside, rfl⟩ := List.mem_map.mp member
    exact decide_eq_true (terminate_ne_nil (filled row inside))
  unfold decodeText
  rw [splitOn_terminate lines]
  simp only [List.append_assoc, List.cons_append, List.nil_append] at kept ⊢
  rw [kept, List.map_map, splitOn_terminate fun column inside => (columnsPlain column inside).1]
  apply List.map_congr_left
  intro row inside
  rw [Function.comp_apply,
    splitOn_terminate fun field within => (rowsPlain row inside field within).1]

section Output

variable {output : Export} {table : SessionHashtable}

theorem plain_rowFields (plain : ∀ l3Proto address, Plain (output.inetNtop l3Proto address))
    (row : FlowDataRow) : ∀ field ∈ output.rowFields row, Plain field := by
  intro field member
  unfold Export.rowFields Export.printSessionFiveTuple at member
  rw [List.mem_append, List.mem_append, List.mem_map] at member
  rcases member with (session | debug) | ⟨feature, _, rfl⟩
  · simp only [List.mem_cons, List.not_mem_nil, or_false] at session
    rcases session with rfl | rfl | rfl | rfl
    · exact plain _ _
    · exact plain_decimal _
    · exact plain_decimal _
    · exact plain_decimalInt _
  · split at debug
    · simp only [List.mem_cons, List.not_mem_nil, or_false] at debug
      rcases debug with rfl | rfl
      · exact plain_decimalInt _
      · exact plain_decimal _
    · cases debug
  · exact plain_decimal _

/-- The time that the first line tells. -/
def Export.time (output : Export) : Text :=
  decimalInt output.tvSec ++ ['.'] ++ decimalPadded output.tvNsec

theorem newline_notMem_time : '\n' ∉ output.time := by
  unfold Export.time
  rw [List.mem_append, List.mem_append]
  intro given
  rcases given with (member | member) | member
  · exact (plain_decimalInt _).2 member
  · exact absurd member (by decide)
  · exact (plain_decimalPadded _).2 member

/-- The lines of a text with a time, a header and rows. -/
theorem lines_eq_terminate (time header : Text) (rows : List (List Text)) :
    time ++ ['\n'] ++ header ++ ['\n'] ++
        (rows.flatMap (fun row => terminate ';' row ++ ['\n']) ++ ['\n']) =
      terminate '\n' ([time, header] ++ rows.map (terminate ';') ++ [[]]) := by
  have none : terminate '\n' ([] : List Text) = [] := rfl
  have blank : terminate '\n' ([[]] : List Text) = ['\n'] := rfl
  rw [terminate_append, terminate_append, terminate_cons, terminate_cons, terminate_map, none,
    blank]
  simp only [List.append_assoc, List.cons_append, List.nil_append]

/-- The lines of an export. -/
theorem exported_eq_terminate :
    output.printHeader ++ output.printFlowData table =
      terminate '\n' ([output.time, terminate ';' (headerColumns output.debug)] ++
        ((flowDataRows table).map output.rowFields).map (terminate ';') ++ [[]]) := by
  rw [← lines_eq_terminate, List.flatMap_map]
  unfold Export.printHeader Export.printFlowData Export.time
  rfl

/-- What a reader makes of it. -/
theorem decodeText_exported
    (plain : ∀ l3Proto address, Plain (output.inetNtop l3Proto address)) :
    decodeText (output.printHeader ++ output.printFlowData table) =
      ((flowDataRows table).map output.rowFields).map fun fields =>
        (headerColumns output.debug ++ [[]]).zip (fields ++ [[]]) := by
  rw [exported_eq_terminate]
  apply decodeText_terminate newline_notMem_time (plain_headerColumns _)
  · intro fields member
    obtain ⟨row, _, rfl⟩ := List.mem_map.mp member
    exact plain_rowFields plain row
  · intro fields member
    obtain ⟨row, _, rfl⟩ := List.mem_map.mp member
    exact List.cons_ne_nil _ _

/-- The last column that the header names is the last feature. -/
theorem headerColumns_eq_append (debug : Bool) :
    headerColumns debug = (headerColumns debug).dropLast ++ [Feature.iatLogCube.name.toList] := by
  cases debug <;> rfl

theorem last_notMem_columns (debug : Bool) :
    Feature.iatLogCube.name.toList ∉ (headerColumns debug).dropLast := by
  cases debug <;> decide

/-- A row has one field less than the header has columns. -/
theorem length_rowFields (row : FlowDataRow) :
    (output.rowFields row).length = (headerColumns output.debug).dropLast.length := by
  unfold Export.rowFields Export.printSessionFiveTuple headerColumns
  cases output.debug <;> rfl

/-- The last feature is read from behind the last semicolon. -/
theorem value_of_last_feature (row : FlowDataRow) :
    (readRecord ((headerColumns output.debug ++ [[]]).zip (output.rowFields row ++ [[]]))).value
      .iatLogCube = some [] := by
  have absent : (((headerColumns output.debug).dropLast).zip (output.rowFields row)).lookup
      Feature.iatLogCube.name.toList = none := by
    rw [List.lookup_eq_none_iff]
    intro pair member
    rw [bne_iff_ne]
    intro same
    exact last_notMem_columns _ (same ▸ (List.of_mem_zip member).1)
  change List.lookup Feature.iatLogCube.name.toList _ = _
  rw [headerColumns_eq_append, List.append_assoc,
    List.zip_append (length_rowFields row).symm, List.lookup_append, absent, Option.none_or]
  exact List.lookup_cons_self

/-- A live session is not recovered. -/
theorem not_decodes (plain : ∀ l3Proto address, Plain (output.inetNtop l3Proto address))
    {session : FiveTuple × Int} (live : session ∈ table.bindings) : ¬ output.Decodes table := by
  intro decodes
  unfold Export.Decodes at decodes
  rw [decodeText_exported plain] at decodes
  have member := Multiset.mem_map_of_mem (output.sessionRecord table) live
  rw [← decodes, Multiset.mem_coe, List.map_map, List.mem_map] at member
  obtain ⟨fields, inside, same⟩ := member
  obtain ⟨row, _, rfl⟩ := List.mem_map.mp inside
  have value := congrFun (congrArg SessionRecord.value same) .iatLogCube
  rw [Function.comp_apply, value_of_last_feature] at value
  exact decimal_ne_nil _ (Option.some.inj value).symm

end Output

/-- The text can be decoded by its own header exactly when no session is live. -/
theorem exported_text_decodes_iff (env : Env) (table : SessionHashtable)
    (maps : table.ReverseMaps env) (output : Export)
    (inetPlain : ∀ l3Proto address, Plain (output.inetNtop l3Proto address)) :
    output.Decodes table ↔ table.bindings = 0 := by
  constructor
  · intro decodes
    by_contra live
    obtain ⟨session, member⟩ := Multiset.exists_mem_of_ne_zero live
    exact not_decodes inetPlain member decodes
  · intro none
    have rows : flowDataRows table = [] := by
      rw [← Multiset.coe_eq_zero, maps.rows, none]
      rfl
    unfold Export.Decodes
    rw [decodeText_exported inetPlain, rows, none]
    rfl

/-- An export of sessions of the zero address. -/
def zeroExport : Export where
  debug := false
  onEgress := allIngress
  values _ _ := 0
  uuidMapping _ := "f81d4fae-7dec-11d0-a765-00a0c91e6bf6".toList
  tvSec := 0
  tvNsec := 0
  inetNtop _ _ := "0.0.0.0".toList

theorem plain_zeroExport (l3Proto : L3Proto) (address : Address) :
    Plain (zeroExport.inetNtop l3Proto address) := by
  change Plain "0.0.0.0".toList
  exact ⟨by decide, by decide⟩

theorem exported_text_decodes_empty : zeroExport.Decodes sessionHashtableInit :=
  (exported_text_decodes_iff (.twoPorts true) sessionHashtableInit
    (SessionHashtable.sessionHashtableInit_exportable _).reverseMaps zeroExport
    plain_zeroExport).mpr sessionHashtableInit_bindings

/-- One session is enough. -/
theorem exported_text_not_decoded :
    Exec.Returns (sessionHashtableAddOrIncreaseFlowCount (.twoPorts true) sessionHashtableInit .zero 4)
      fun result => result.2.ReverseMaps (.twoPorts true) ∧ ¬ zeroExport.Decodes result.2 := by
  have none : ∀ b ∈ sessionHashtableInit.bindings, False := by
    intro b member
    rw [sessionHashtableInit_bindings] at member
    exact Multiset.notMem_zero b member
  have init := SessionHashtable.sessionHashtableInit_exportable (.twoPorts true)
  have admissible : (SessionCall.addOrIncreaseFlowCount .zero 4).Admissible (.twoPorts true)
      sessionHashtableInit :=
    ⟨fun b member => (none b member).elim, fun _ => ⟨by decide, fun b member =>
      (none b member).elim, by decide, fun b member => (none b member).elim⟩⟩
  obtain ⟨result, added, exportable⟩ := init.add admissible
  obtain ⟨_, _, bindings, _⟩ := (sessionHashtableAdd_of_absent init.valid init.room
    (fun b member => (none b member).elim) fun b member => (none b member).elim).of_pure added
  have live : (FiveTuple.zero, (4 : Int)) ∈ result.2.bindings := by
    rw [bindings]
    exact Multiset.mem_cons_self _ _
  exact ⟨result, added, exportable.reverseMaps, not_decodes plain_zeroExport live⟩

end Marina
