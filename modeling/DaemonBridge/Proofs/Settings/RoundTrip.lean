import DaemonBridge.Proofs.Json.Members
import DaemonBridge.Proofs.Toml.Thinning
import DaemonBridge.Settings.Wire

/-!
# Settings written and read

Valid settings that are written are read back, whatever is left out of the text that has its default
(`Settings.parse_thinned`). A field that is left out of its table and a field of a table that is left out have
the same default, since a table without entries is read as the one that stands for its absence.
-/

namespace DaemonBridge

open Json (Record)
open Toml (Header Plain Block jsonMembers tableBlock rowBlock ThinnedTable)

/-! ## Defaults -/

namespace Settings

/-- The blocks of what holds unless something else is said: those of the default settings, and the address of
a server. -/
def defaultBlocks : List Block :=
  ({} : Settings).blocks ++
    [⟨.arrayTable "servers", [("homeserver", .string ({ name := "" } : Server).homeserver)]⟩]

/-- The entry says what would hold without it. -/
def IsDefault (header : Header) (entry : String × Plain) : Prop :=
  ∃ block ∈ defaultBlocks, block.header = header ∧ entry ∈ block.entries

instance (header : Header) (entry : String × Plain) : Decidable (IsDefault header entry) :=
  inferInstanceAs (Decidable (∃ block ∈ defaultBlocks, block.header = header ∧ entry ∈ block.entries))

end Settings

open Settings (IsDefault)

/-! ## Tables -/

section Tables

variable {α β : Type} {a absent : α} {b : β} {name : String} {v : Plain}
  {header : Header} {r : Record α} {s : Record β} {entries more : List (String × Plain)}

/-- The record reads the entries as a value, whichever of them are left out under the header because they have
their default. -/
def ReadsThinned (header : Header) (r : Record α) (entries : List (String × Plain)) (a : α) : Prop :=
  ∀ keep : String × Plain → Bool, (∀ entry ∈ entries, keep entry = false → IsDefault header entry) →
    r.Reads .table (jsonMembers (entries.filter keep)) a

/-- A field that may be absent, if its default is what its absence stands for. -/
theorem readsThinned_optional (decoder : Json.Decoder α) (h : decoder .table v.json.tree = .ok a)
    (hgone : IsDefault header (name, v) → a = absent) :
    ReadsThinned header (Record.optional absent name decoder) [(name, v)] a := by
  intro keep hkeep
  cases hkept : keep (name, v) with
  | true =>
    rw [List.filter_cons_of_pos hkept]
    exact Json.Record.reads_fieldOr (some absent) h
  | false =>
    rw [List.filter_cons_of_neg (by simp [hkept]), hgone (hkeep _ (List.mem_singleton_self _) hkept)]
    exact Json.Record.reads_absent absent name decoder

/-- A field that must be there, if it has no default. -/
theorem readsThinned_field (decoder : Json.Decoder α) (h : decoder .table v.json.tree = .ok a)
    (hkept : ¬ IsDefault header (name, v)) :
    ReadsThinned header (Record.field name decoder) [(name, v)] a := by
  intro keep hkeep
  have hthere : keep (name, v) = true := by
    by_contra hgone
    exact hkept (hkeep _ (List.mem_singleton_self _) (Bool.eq_false_iff.mpr hgone))
  rw [List.filter_cons_of_pos hthere]
  exact Json.Record.reads_field h

/-- Two records without a common field. -/
theorem ReadsThinned.and (hr : ReadsThinned header r entries a) (hs : ReadsThinned header s more b)
    (hnew : ∀ name ∈ s.names, name ∉ r.names) : ReadsThinned header (r.and s) (entries ++ more) (a, b) := by
  intro keep hkeep
  rw [List.filter_append, jsonMembers, List.map_append]
  exact (hr keep fun entry hmem => hkeep entry (List.mem_append_left _ hmem)).and
    (hs keep fun entry hmem => hkeep entry (List.mem_append_right _ hmem)) hnew

/-- A record that is put together otherwise. -/
theorem ReadsThinned.map (h : ReadsThinned header r entries a) (f : α → β) :
    ReadsThinned header (r.map f) entries (f a) :=
  fun keep hkeep => (h keep hkeep).map f

/-- Where every entry has its default, they may all be left out. -/
theorem ReadsThinned.of_default (h : ReadsThinned header r entries a)
    (hgone : ∀ entry ∈ entries, IsDefault header entry) : r.Reads .table [] a := by
  have hnone := h (fun _ => false) fun entry hmem _ => hgone entry hmem
  rwa [List.filter_eq_nil_iff.mpr (by simp)] at hnone

/-- A table is read, be it kept with some of its entries or left out. -/
theorem ReadsThinned.table {tables : List (String × List (String × Plain))}
    (h : ReadsThinned (.table name) r entries a) (habsent : r.Reads .table [] absent) (what : String)
    (htables : ThinnedTable IsDefault name entries tables) :
    (Record.optional absent name (r.decoder what)).Reads .table
      (tables.map fun table => (table.1, .obj (jsonMembers table.2))) a := by
  cases htables with
  | entries keep hkeep => exact Json.Record.reads_fieldOr (some absent) ((h keep hkeep).decoder rfl what)
  | table hgone =>
    rw [(h.of_default hgone).unique habsent]
    exact Json.Record.reads_absent absent name _

end Tables

/-! ## Sections -/

/-- The pace settings. -/
theorem PaceSettings.readsThinned (pace : PaceSettings) :
    ReadsThinned (.table "bridge") PaceSettings.record
      [("tick_interval_ms", .integer pace.tickInterval), ("signal_history", .integer pace.signalHistory)]
      pace := by
  have htick : IsDefault (.table "bridge") ("tick_interval_ms", .integer pace.tickInterval) →
      pace.tickInterval = ({} : PaceSettings).tickInterval := by
    simp [IsDefault, Settings.defaultBlocks, Settings.blocks, Settings.tables]
  have hhistory : IsDefault (.table "bridge") ("signal_history", .integer pace.signalHistory) →
      pace.signalHistory = ({} : PaceSettings).signalHistory := by
    simp [IsDefault, Settings.defaultBlocks, Settings.blocks, Settings.tables]
  have hfields := (readsThinned_optional Json.uint64 rfl htick).and
    (readsThinned_optional (Json.uint64Named "usize") rfl hhistory) (by decide)
  exact hfields.map _

/-- The notification settings. -/
theorem NotificationSettings.readsThinned (notifications : NotificationSettings) :
    ReadsThinned (.table "notifications") NotificationSettings.record
      [("enabled", .boolean notifications.enabled), ("app_name", .string notifications.appName),
        ("notify_send_bin", .string notifications.program)] notifications := by
  have henabled : IsDefault (.table "notifications") ("enabled", .boolean notifications.enabled) →
      notifications.enabled = ({} : NotificationSettings).enabled := by
    simp [IsDefault, Settings.defaultBlocks, Settings.blocks, Settings.tables]
  have happName : IsDefault (.table "notifications") ("app_name", .string notifications.appName) →
      notifications.appName = ({} : NotificationSettings).appName := by
    simp [IsDefault, Settings.defaultBlocks, Settings.blocks, Settings.tables]
  have hprogram : IsDefault (.table "notifications") ("notify_send_bin", .string notifications.program) →
      notifications.program = ({} : NotificationSettings).program := by
    simp [IsDefault, Settings.defaultBlocks, Settings.blocks, Settings.tables]
  have hfields := ((readsThinned_optional Json.bool rfl henabled).and
    (readsThinned_optional Json.string rfl happName) (by decide)).and
    (readsThinned_optional Json.string rfl hprogram) (by decide)
  exact hfields.map _

/-- The settings of the socket, which has no default. -/
theorem readsThinned_socketPath (socketPath : Option String) :
    ReadsThinned (.table "ipc") (Record.optional none "socket_path" (Json.nullable Json.string))
      (socketPath.map fun path => ("socket_path", Plain.string path)).toList socketPath := by
  cases socketPath with
  | none => exact fun _ _ => Json.Record.reads_absent none "socket_path" _
  | some path =>
    refine readsThinned_optional _ rfl fun hdefault => absurd hdefault ?_
    simp [IsDefault, Settings.defaultBlocks, Settings.blocks, Settings.tables]

/-- The settings of the log. -/
theorem readsThinned_logLevel (level : String) :
    ReadsThinned (.table "logging") (Record.optional ({} : Settings).logLevel "level" Json.string)
      [("level", .string level)] level := by
  refine readsThinned_optional _ rfl ?_
  simp [IsDefault, Settings.defaultBlocks, Settings.blocks, Settings.tables]

/-- A server, of which only the address has a default. -/
theorem Server.readsThinned (server : Server) :
    ReadsThinned (.arrayTable "servers") Server.record
      [("name", .string server.name), ("homeserver", .string server.homeserver)] server := by
  have hname : ¬ IsDefault (.arrayTable "servers") ("name", .string server.name) := by
    simp [IsDefault, Settings.defaultBlocks, Settings.blocks, Settings.tables]
  have hhomeserver : IsDefault (.arrayTable "servers") ("homeserver", .string server.homeserver) →
      server.homeserver = "" := by
    simp [IsDefault, Settings.defaultBlocks, Settings.blocks, Settings.tables]
  have hfields := (readsThinned_field Json.string rfl hname).and
    (readsThinned_optional Json.string rfl hhomeserver) (by decide)
  exact hfields.map _

namespace Settings

/-- The fields of the settings that are written as tables. -/
def tablesRecord : Record (((PaceSettings × NotificationSettings) × Option String) × String) :=
  (((Record.optional {} "bridge" (PaceSettings.record.decoder "struct BridgeConfig")).and
    (.optional {} "notifications" (NotificationSettings.record.decoder "struct NotificationConfig"))).and
    (.optional none "ipc"
      ((Record.optional none "socket_path" (Json.nullable Json.string)).decoder "struct IpcConfig"))).and
    (.optional ({} : Settings).logLevel "logging"
      ((Record.optional ({} : Settings).logLevel "level" Json.string).decoder "struct LoggingConfig"))

/-- The servers, one after another. -/
def serversDecoder : Json.Decoder (List Server) :=
  Json.list (Server.record.decoder "struct ServerConfig")

/-- The field of the servers. -/
def serversRecord : Record (List Server) :=
  .optional [] "servers" serversDecoder

/-- The tables of the settings, of which some are left. -/
structure TablesLeft (s : Settings) (tables : List (String × List (String × Plain))) : Prop where
  names : (tables.map Prod.fst).Sublist ["bridge", "notifications", "ipc", "logging"]
  keys : ∀ table ∈ tables, (table.2.map Prod.fst).Nodup
  reads : tablesRecord.Reads .table (tables.map fun table => (table.1, .obj (jsonMembers table.2)))
    (((s.pace, s.notifications), s.socketPath), s.logLevel)

/-- What is left of the tables is read as the settings in them. -/
theorem exists_tables (s : Settings) {left : List (List Block)}
    (h : List.Forall₂ (Block.Thinned IsDefault) s.tables left) :
    ∃ tables, left.flatten = tables.map tableBlock ∧ s.TablesLeft tables := by
  obtain _ | ⟨hbridge, _ | ⟨hnotices, _ | ⟨hipc, _ | ⟨hlogging, _ | _⟩⟩⟩⟩ := h
  obtain ⟨pace, rfl, hpace⟩ := hbridge.exists_table
  obtain ⟨notifications, rfl, hnotifications⟩ := hnotices.exists_table
  obtain ⟨socket, rfl, hsocket⟩ := hipc.exists_table
  obtain ⟨log, rfl, hlog⟩ := hlogging.exists_table
  refine ⟨pace ++ notifications ++ socket ++ log, by simp, ?_, ?_, ?_⟩
  · simp only [List.map_append]
    exact ((hpace.names.append hnotifications.names).append hsocket.names).append hlog.names
  · have hsocketKeys : ((s.socketPath.map fun path => ("socket_path", Plain.string path)).toList.map
        Prod.fst).Nodup := by
      cases s.socketPath <;> simp
    simp only [List.forall_mem_append]
    exact ⟨⟨⟨hpace.keys (by simp), hnotifications.keys (by simp)⟩, hsocket.keys hsocketKeys⟩,
      hlog.keys (by simp)⟩
  · simp only [List.map_append]
    have hpaceRead := s.pace.readsThinned.table ((PaceSettings.readsThinned {}).of_default (by decide))
      "struct BridgeConfig" hpace
    have hnotificationsRead := s.notifications.readsThinned.table
      ((NotificationSettings.readsThinned {}).of_default (by decide)) "struct NotificationConfig"
      hnotifications
    have hsocketRead := (readsThinned_socketPath s.socketPath).table
      ((readsThinned_socketPath none).of_default (by decide)) "struct IpcConfig" hsocket
    have hlogRead := (readsThinned_logLevel s.logLevel).table
      ((readsThinned_logLevel ({} : Settings).logLevel).of_default (by decide)) "struct LoggingConfig" hlog
    exact ((hpaceRead.and hnotificationsRead (by decide)).and hsocketRead (by decide)).and hlogRead
      (by decide)

/-- The tables of the servers, of which some entries are left. -/
structure RowsLeft (servers : List Server) (rows : List (List (String × Plain))) : Prop where
  keys : ∀ row ∈ rows, (row.map Prod.fst).Nodup
  reads : List.Forall₂ (fun row server => Server.record.decoder "struct ServerConfig" .table
    (Json.Value.obj (jsonMembers row)).tree = .ok server) rows servers

/-- What is left of the servers is read as the servers. -/
theorem exists_rows {servers : List Server} {left : List (List Block)}
    (h : List.Forall₂ (Block.Thinned IsDefault) (servers.map serverBlock) left) :
    ∃ rows, left.flatten = rows.map (rowBlock "servers") ∧ RowsLeft servers rows := by
  induction servers generalizing left with
  | nil =>
    obtain rfl := List.forall₂_nil_left_iff.mp h
    exact ⟨[], rfl, nofun, .nil⟩
  | cons server servers ih =>
    obtain _ | ⟨hserver, hservers⟩ := h
    obtain ⟨keep, rfl, hkeep⟩ := hserver.exists_row
    obtain ⟨rows, hrows, hkeys, hreads⟩ := ih hservers
    let entries := [("name", Plain.string server.name), ("homeserver", .string server.homeserver)]
    refine ⟨entries.filter keep :: rows, ?_, List.forall_mem_cons.mpr ⟨?_, hkeys⟩, .cons ?_ hreads⟩
    · rw [List.flatten_cons, hrows]
      rfl
    · have hall : (entries.map Prod.fst).Nodup := by simp [entries]
      exact hall.sublist (List.filter_sublist.map _)
    · exact (server.readsThinned keep hkeep).decoder rfl _

/-- The entry on top of settings without servers. -/
def topEntries (s : Settings) : List (String × Plain) :=
  if s.servers.isEmpty then [("servers", .emptyArray)] else []

/-- What is left of the top. -/
theorem exists_top (s : Settings) {left : List (List Block)}
    (h : List.Forall₂ (Block.Thinned IsDefault)
      (if s.servers.isEmpty then [⟨.none, [("servers", .emptyArray)]⟩] else []) left) :
    ∃ kept : List (String × Plain), left.flatten.flatMap Block.statements = kept.map Toml.entryStatement ∧
      kept.Sublist s.topEntries := by
  by_cases hnone : s.servers.isEmpty
  · rw [if_pos hnone] at h
    rw [topEntries, if_pos hnone]
    obtain _ | ⟨htop, _ | _⟩ := h
    obtain ⟨kept, hkept, hsaid⟩ := htop.exists_top
    exact ⟨kept, by rw [List.flatten_cons, List.flatten_nil, List.append_nil, hsaid], hkept⟩
  · rw [if_neg hnone] at h
    obtain rfl := List.forall₂_nil_left_iff.mp h
    exact ⟨[], rfl, List.nil_sublist _⟩

/-! ## The whole -/

/-- Every key that is written needs no quotes. -/
theorem isBare_blocks (s : Settings) : ∀ block ∈ s.blocks, block.IsBare := by
  have htop : ∀ block ∈ if s.servers.isEmpty then [(⟨.none, [("servers", .emptyArray)]⟩ : Block)] else [],
      block.IsBare := by
    split
    · exact List.forall_mem_singleton.mpr (.of_keys ["servers"] trivial (List.Subset.refl _) (by decide))
    · exact nofun
  have hsocket : (s.socketPath.map fun path => ("socket_path", Plain.string path)).toList.map Prod.fst ⊆
      ["socket_path"] := by
    cases s.socketPath <;> simp
  have htables : ∀ block ∈ s.tables, block.IsBare := by
    simp only [tables, List.forall_mem_cons]
    exact ⟨.of_keys ["tick_interval_ms", "signal_history"] (by decide) (List.Subset.refl _) (by decide),
      .of_keys ["enabled", "app_name", "notify_send_bin"] (by decide) (List.Subset.refl _) (by decide),
      .of_keys ["socket_path"] (by decide) hsocket (by decide),
      .of_keys ["level"] (by decide) (List.Subset.refl _) (by decide), nofun⟩
  have hservers : ∀ block ∈ s.servers.map serverBlock, block.IsBare := by
    intro block hmem
    obtain ⟨server, -, rfl⟩ := List.mem_map.mp hmem
    exact .of_keys ["name", "homeserver"] (by decide) (List.Subset.refl _) (by decide)
  rw [blocks, List.forall_mem_append, List.forall_mem_append]
  exact ⟨⟨htop, htables⟩, hservers⟩

/-- What is left of the settings is laid out so. -/
structure IsLeft (s : Settings) (l : Toml.Layout) : Prop where
  top : l.top.Sublist s.topEntries
  tables : s.TablesLeft l.tables
  arrayName : l.arrayName = "servers"
  rows : RowsLeft s.servers l.rows

/-- A thinned text says what is left. -/
theorem exists_layout (s : Settings) {text : List Char} (h : Toml.Thinned IsDefault s.blocks text) :
    ∃ l, s.IsLeft l ∧ Toml.Says text l.statements := by
  obtain ⟨left, hleft, hsaid⟩ := h.exists_left s.isBare_blocks
  obtain ⟨upper, lower, rfl, hupper, hlower⟩ := Toml.exists_left_append hleft
  obtain ⟨first, middle, rfl, hfirst, hmiddle⟩ := Toml.exists_left_append hupper
  obtain ⟨top, htopSaid, htop⟩ := s.exists_top hfirst
  obtain ⟨tables, htables, hleftTables⟩ := s.exists_tables hmiddle
  obtain ⟨rows, hrows, hleftRows⟩ := exists_rows hlower
  refine ⟨⟨top, tables, "servers", rows⟩, ⟨htop, hleftTables, rfl, hleftRows⟩, ?_⟩
  rw [Toml.Layout.statements, ← htopSaid, ← htables, ← hrows]
  simpa only [List.flatten_append, List.flatMap_append] using hsaid

namespace IsLeft

variable {s : Settings} {l : Toml.Layout}

/-- There are no tables of servers where there are no servers. -/
theorem rows_eq_nil_iff (h : s.IsLeft l) : l.rows = [] ↔ s.servers = [] := by
  rw [← List.length_eq_zero_iff, ← List.length_eq_zero_iff, h.rows.reads.length_eq]

/-- No key is left twice. -/
theorem keysDistinct (h : s.IsLeft l) : l.KeysDistinct := by
  refine ⟨?_, h.tables.keys, h.rows.keys⟩
  have htop := h.top.map Prod.fst
  rw [Toml.Layout.map_fst_entries, h.arrayName]
  by_cases hnone : s.servers = []
  · rw [topEntries, hnone] at htop
    rw [if_pos (h.rows_eq_nil_iff.mpr hnone)]
    have hall : ["servers", "bridge", "notifications", "ipc", "logging"].Nodup := by decide
    exact hall.sublist ((htop.append h.tables.names).append (List.Sublist.refl []))
  · rw [topEntries, if_neg (by simpa using hnone)] at htop
    rw [if_neg fun hrows => hnone (h.rows_eq_nil_iff.mp hrows)]
    have hall : ["bridge", "notifications", "ipc", "logging", "servers"].Nodup := by decide
    exact hall.sublist ((htop.append h.tables.names).append (List.Sublist.refl ["servers"]))

/-- The array of the tables of servers is read as the servers. -/
theorem serversDecoder_eq (h : s.IsLeft l) :
    serversDecoder .table (Json.Value.arr (l.rows.map fun row => .obj (jsonMembers row))).tree =
      .ok s.servers := by
  refine (Json.list_eq_ok_iff rfl).mpr ⟨_, rfl, ?_⟩
  rw [List.forall₂_map_left_iff]
  exact h.rows.reads

/-- What is left is read as the settings. -/
theorem reads (h : s.IsLeft l) : record.Reads .table l.members s := by
  have htop := h.top
  rw [Toml.Layout.members, h.arrayName]
  by_cases hnone : s.servers = []
  · -- The empty array, if it is left, stands in front of the tables.
    have hrows := h.rows_eq_nil_iff.mpr hnone
    have hservers : serversRecord.Reads .table (jsonMembers l.top) s.servers := by
      rw [topEntries, hnone] at htop
      rcases List.sublist_singleton.mp htop with htop | htop
      · rw [htop, hnone]
        exact Json.Record.reads_absent [] "servers" _
      · have harray := h.serversDecoder_eq
        rw [hrows] at harray
        rw [htop]
        exact Json.Record.reads_fieldOr (some []) harray
    rw [if_pos hrows, List.append_nil]
    exact (h.tables.reads.and_swapped hservers (by decide)).map _
  · have hservers : serversRecord.Reads .table
        [("servers", .arr (l.rows.map fun row => .obj (jsonMembers row)))] s.servers :=
      Json.Record.reads_fieldOr (some []) h.serversDecoder_eq
    rw [topEntries, if_neg (by simpa using hnone)] at htop
    rw [if_neg fun hrows => hnone (h.rows_eq_nil_iff.mp hrows), List.sublist_nil.mp htop]
    exact (h.tables.reads.and hservers (by decide)).map _

end IsLeft

/-- A thinned text of settings is read as the settings. -/
theorem ofToml?_of_thinned (s : Settings) {text : List Char} (h : Toml.Thinned IsDefault s.blocks text) :
    ofToml? text = some s := by
  obtain ⟨l, hleft, hsaid⟩ := s.exists_layout h
  have hdecode : decoder .table (Toml.Value.table .header l.entries).tree = .ok s := by
    rw [l.tree_eq]
    exact hleft.reads.decoder rfl _
  simp only [ofToml?, l.document?_eq hleft.keysDistinct hsaid, hdecode]

/-- Valid settings that are written are read back as they are, and so they are from every text of theirs in
which entries and whole tables are left out that have their defaults. -/
theorem parse_thinned (s : Settings) (h : s.fault? = none) :
    parse s.toToml = .ok s ∧ ∀ text, Toml.Thinned IsDefault s.blocks text → parse text = .ok s := by
  have hthinned : ∀ text, Toml.Thinned IsDefault s.blocks text → parse text = .ok s := by
    intro text htext
    rw [parse, ofToml?_of_thinned s htext]
    show s.checked = .ok s
    rw [checked, h]
  exact ⟨hthinned _ (Toml.thinned_renderBlocks s.blocks), hthinned⟩

/-- Settings with quotes, line breaks and a control in their strings are read back, and so they are without
their pace, their log, a truth value and the address of a server. -/
theorem parse_thinned_quoted :
    let s : Settings :=
      { notifications := { appName := "a \"b\"\nc" }, socketPath := some "/tmp/\"s\"",
        servers := [⟨"one", ""⟩, ⟨"\x01", "https://example.org"⟩] }
    parse s.toToml = .ok s ∧
      parse ("[notifications]\napp_name = \"\"\"\na \"b\"\nc\"\"\"\n[ipc]\nsocket_path = '/tmp/\"s\"'\n\n" ++
        "[[servers]]\nname = \"one\"\n\n[[servers]]\nname = \"\\u0001\"\n" ++
        "homeserver = \"https://example.org\"\n").toList = .ok s := by
  intro s
  obtain ⟨hwhole, hthinned⟩ := s.parse_thinned (by decide)
  have hleft : Toml.Thinned IsDefault s.blocks _ :=
    .block (.table _ _ nofun (by decide)) <|
    .block (.entries _ _ (fun entry => entry.1 = "app_name") (by decide)) <|
    .block (.refl _) <| .emptyLine <|
    .block (.table _ _ nofun (by decide)) <|
    .block (.entries _ _ (fun entry => entry.1 = "name") (by decide)) <| .emptyLine <|
    .block (.refl _) .nil
  refine ⟨hwhole, (congrArg parse ?_).trans (hthinned _ hleft)⟩
  decide +kernel

end Settings

end DaemonBridge
