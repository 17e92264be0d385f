import DaemonBridge.Proofs.Cache.Snapshot
import DaemonBridge.Settings.Wire

/-!
# The rules of the settings

Settings are valid if they keep every rule (`Settings.Keeps`), and otherwise the fault that is reported is
that of the first rule they break (`Settings.Breaks`, `Settings.checked_first_fault`). The servers are
checked one by one against the names in front of them, so that the first server at fault is reported and
those behind it do not matter. What the last rule is for is seen in the cache: valid settings name no server
twice, so a refresh of the logins keeps the answers for all of them apart.
-/

namespace DaemonBridge

/-! ## Servers -/

/-- The names can be told apart, and each of them is one. -/
def AreNames (names : List String) : Prop :=
  (∀ name ∈ names, name ≠ "") ∧ names.Nodup

/-- A first server is at fault for its own name or for that of an earlier one. -/
theorem serverFault?_cons_eq_none_iff (index : Nat) (seen : List String) (server : Server)
    (rest : List Server) : serverFault? index seen (server :: rest) = none ↔
      (server.name ≠ "" ∧ server.name ∉ seen) ∧
        serverFault? (index + 1) (server.name :: seen) rest = none := by
  rw [serverFault?]
  split
  · next hempty => simp [hempty]
  · next hname =>
    split
    · next hseen => simp [hseen]
    · next hnew => simp [hname, hnew]

/-- No server is at fault exactly if the names are names and none of them has been seen. -/
theorem serverFault?_eq_none_iff (index : Nat) (seen : List String) (servers : List Server) :
    serverFault? index seen servers = none ↔
      AreNames (servers.map Server.name) ∧ ∀ name ∈ servers.map Server.name, name ∉ seen := by
  induction servers generalizing index seen with
  | nil => simp [serverFault?, AreNames]
  | cons server rest ih =>
    rw [serverFault?_cons_eq_none_iff, ih, AreNames, AreNames, List.map_cons, List.forall_mem_cons,
      List.forall_mem_cons, List.nodup_cons]
    constructor
    · rintro ⟨⟨hname, hnew⟩, ⟨hnames, hnodup⟩, hrest⟩
      have hother : server.name ∉ rest.map Server.name := fun hmem =>
        hrest _ hmem List.mem_cons_self
      exact ⟨⟨⟨hname, hnames⟩, hother, hnodup⟩, hnew, fun name hmem hseen =>
        hrest name hmem (List.mem_cons_of_mem _ hseen)⟩
    · rintro ⟨⟨⟨hname, hnames⟩, hother, hnodup⟩, hnew, hrest⟩
      refine ⟨⟨hname, hnew⟩, ⟨hnames, hnodup⟩, fun name hmem hseen => ?_⟩
      rcases List.mem_cons.mp hseen with rfl | hseen
      · exact hother hmem
      · exact hrest name hmem hseen

/-- The fault of a server at a place: it has no name, or else the name is one that was there before. -/
def faultAt (index : Nat) (name : String) : SettingsFault :=
  if name = "" then .unnamedServer index else .repeatedServer index name

/-- A server is reported exactly if those in front of it are not at fault and it has no name or a name
that was there before. -/
theorem serverFault?_eq_some_iff (index : Nat) (seen : List String) (servers : List Server)
    (fault : SettingsFault) : serverFault? index seen servers = some fault ↔
      ∃ before server after, servers = before ++ server :: after ∧
        serverFault? index seen before = none ∧
        (server.name = "" ∨ server.name ∈ before.map Server.name ∨ server.name ∈ seen) ∧
        fault = faultAt (index + before.length) server.name := by
  induction servers generalizing index seen with
  | nil => simp [serverFault?]
  | cons server rest ih =>
    by_cases hfault : server.name = "" ∨ server.name ∈ seen
    · -- the first server is at fault, so nothing stands in front of the one that is reported
      have hhere : serverFault? index seen (server :: rest) = some (faultAt index server.name) := by
        rw [serverFault?, faultAt]
        split
        · rfl
        · next hname => rw [if_pos (hfault.resolve_left hname)]
      rw [hhere, Option.some.injEq]
      constructor
      · rintro rfl
        exact ⟨[], server, rest, rfl, rfl, hfault.imp_right .inr, rfl⟩
      · rintro ⟨before, other, after, hsplit, hnone, -, rfl⟩
        cases before with
        | nil =>
          obtain ⟨rfl, -⟩ := List.cons.inj hsplit
          rfl
        | cons first before =>
          obtain ⟨rfl, -⟩ := List.cons.inj hsplit
          have hgood := ((serverFault?_cons_eq_none_iff _ _ _ _).mp hnone).1
          exact absurd hfault (not_or.mpr hgood)
    · obtain ⟨hname, hnew⟩ := not_or.mp hfault
      have hnext : serverFault? index seen (server :: rest) =
          serverFault? (index + 1) (server.name :: seen) rest := by
        rw [serverFault?, if_neg hname, if_neg hnew]
      rw [hnext, ih]
      constructor
      · rintro ⟨before, other, after, rfl, hnone, hother, rfl⟩
        refine ⟨server :: before, other, after, rfl,
          (serverFault?_cons_eq_none_iff _ _ _ _).mpr ⟨⟨hname, hnew⟩, hnone⟩, ?_, ?_⟩
        · simp only [List.map_cons, List.mem_cons] at hother ⊢
          tauto
        · rw [List.length_cons, Nat.add_right_comm, Nat.add_assoc]
      · rintro ⟨before, other, after, hsplit, hnone, hother, rfl⟩
        cases before with
        | nil =>
          obtain ⟨rfl, -⟩ := List.cons.inj hsplit
          simp only [List.map_nil, List.not_mem_nil, false_or] at hother
          exact absurd hother hfault
        | cons first before =>
          obtain ⟨rfl, rfl⟩ := List.cons.inj hsplit
          refine ⟨before, other, after, rfl, ((serverFault?_cons_eq_none_iff _ _ _ _).mp hnone).2, ?_, ?_⟩
          · simp only [List.map_cons, List.mem_cons] at hother ⊢
            tauto
          · rw [List.length_cons, Nat.add_right_comm, Nat.add_assoc]

/-! ## Rules -/

/-- A rule that settings have to keep. -/
inductive SettingsRule where
  | tickInterval
  | signalHistory
  | program
  | socketPath
  | logLevel
  | servers
  deriving DecidableEq, Repr

/-- The rules in the sequence in which they are checked. -/
def SettingsRule.all : List SettingsRule :=
  [.tickInterval, .signalHistory, .program, .socketPath, .logLevel, .servers]

/-- The place of the server that is at fault. -/
def SettingsFault.server? : SettingsFault → Option Nat
  | .unnamedServer index | .repeatedServer index _ => some index
  | _ => none

namespace Settings

/-- The settings keep a rule. -/
def Keeps (s : Settings) : SettingsRule → Prop
  | .tickInterval => s.pace.tickInterval ≠ 0
  | .signalHistory => s.pace.signalHistory ≠ 0
  | .program => s.notifications.enabled = true → s.notifications.program ≠ ""
  | .socketPath => s.socketPath ≠ some ""
  | .logLevel => s.logLevel ∈ ["trace", "debug", "info", "warn", "error"]
  | .servers => AreNames s.serverNames

/-- The settings break a rule by a fault. Of the servers, the first one that has no name or the name of an
earlier one is at fault. -/
inductive Breaks (s : Settings) : SettingsRule → SettingsFault → Prop
  | tickInterval (h : s.pace.tickInterval = 0) : Breaks s .tickInterval .tickInterval
  | signalHistory (h : s.pace.signalHistory = 0) : Breaks s .signalHistory .signalHistory
  | program (henabled : s.notifications.enabled = true) (h : s.notifications.program = "") :
    Breaks s .program .program
  | socketPath (h : s.socketPath = some "") : Breaks s .socketPath .socketPath
  | logLevel (h : s.logLevel ∉ ["trace", "debug", "info", "warn", "error"]) :
    Breaks s .logLevel (.logLevel s.logLevel)
  | unnamedServer (before : List Server) (server : Server) (after : List Server)
    (hsplit : s.servers = before ++ server :: after) (hbefore : AreNames (before.map Server.name))
    (hname : server.name = "") : Breaks s .servers (.unnamedServer before.length)
  | repeatedServer (before : List Server) (server : Server) (after : List Server)
    (hsplit : s.servers = before ++ server :: after) (hbefore : AreNames (before.map Server.name))
    (hname : server.name ≠ "") (hearlier : server.name ∈ before.map Server.name) :
    Breaks s .servers (.repeatedServer before.length server.name)

/-- The fault of a single rule. -/
def faultOf? (s : Settings) : SettingsRule → Option SettingsFault
  | .tickInterval => if s.pace.tickInterval = 0 then some .tickInterval else none
  | .signalHistory => if s.pace.signalHistory = 0 then some .signalHistory else none
  | .program =>
    if s.notifications.enabled ∧ s.notifications.program = "" then some .program else none
  | .socketPath => if s.socketPath = some "" then some .socketPath else none
  | .logLevel => if s.logLevel ∉ logLevels then some (.logLevel s.logLevel) else none
  | .servers => serverFault? 0 [] s.servers

/-- A rule that is broken hides those behind it. -/
theorem findSome?_faultOf?_cons {s : Settings} {rule : SettingsRule} {rules : List SettingsRule}
    {p : Prop} [Decidable p] {fault : SettingsFault}
    (h : s.faultOf? rule = if p then some fault else none) :
    (rule :: rules).findSome? s.faultOf? =
      if p then some fault else rules.findSome? s.faultOf? := by
  rw [List.findSome?_cons, h]
  by_cases hp : p
  · simp only [if_pos hp]
  · simp only [if_neg hp]

/-- The rules are checked in their sequence. -/
theorem fault?_eq_findSome? (s : Settings) : s.fault? = SettingsRule.all.findSome? s.faultOf? := by
  have hlast : [SettingsRule.servers].findSome? s.faultOf? = serverFault? 0 [] s.servers :=
    List.findSome?_singleton
  rw [SettingsRule.all, findSome?_faultOf?_cons rfl, findSome?_faultOf?_cons rfl,
    findSome?_faultOf?_cons rfl, findSome?_faultOf?_cons rfl, findSome?_faultOf?_cons rfl, hlast]
  rfl

/-- A rule has no fault exactly if it is kept. -/
theorem faultOf?_eq_none_iff (s : Settings) (rule : SettingsRule) :
    s.faultOf? rule = none ↔ s.Keeps rule := by
  cases rule with
  | tickInterval | signalHistory | program | socketPath => simp [faultOf?, Keeps]
  | logLevel =>
    show (if s.logLevel ∉ logLevels then _ else none) = none ↔ s.logLevel ∈ logLevels
    simp
  | servers => simp [faultOf?, Keeps, serverFault?_eq_none_iff, serverNames]

/-- A rule has a fault exactly if it is broken by it. -/
theorem faultOf?_eq_some_iff (s : Settings) (rule : SettingsRule) (fault : SettingsFault) :
    s.faultOf? rule = some fault ↔ s.Breaks rule fault := by
  have hone : ∀ {p : Prop} [Decidable p] {own : SettingsFault},
      (if p then some own else none) = some fault ↔ p ∧ own = fault := by
    intro p _ own
    simp
  cases rule with
  | tickInterval =>
    exact hone.trans ⟨fun ⟨h, heq⟩ => heq ▸ .tickInterval h, fun | .tickInterval h => ⟨h, rfl⟩⟩
  | signalHistory =>
    exact hone.trans ⟨fun ⟨h, heq⟩ => heq ▸ .signalHistory h, fun | .signalHistory h => ⟨h, rfl⟩⟩
  | program =>
    exact hone.trans ⟨fun ⟨h, heq⟩ => heq ▸ .program h.1 h.2, fun | .program he h => ⟨⟨he, h⟩, rfl⟩⟩
  | socketPath =>
    exact hone.trans ⟨fun ⟨h, heq⟩ => heq ▸ .socketPath h, fun | .socketPath h => ⟨h, rfl⟩⟩
  | logLevel =>
    exact hone.trans ⟨fun ⟨h, heq⟩ => heq ▸ .logLevel h, fun | .logLevel h => ⟨h, rfl⟩⟩
  | servers =>
    simp only [faultOf?, serverFault?_eq_some_iff, serverFault?_eq_none_iff, List.not_mem_nil,
      not_false_eq_true, implies_true, and_true, or_false, Nat.zero_add]
    constructor
    · rintro ⟨before, server, after, hsplit, hbefore, hfault, rfl⟩
      by_cases hname : server.name = ""
      · rw [faultAt, if_pos hname]
        exact .unnamedServer before server after hsplit hbefore hname
      · rw [faultAt, if_neg hname]
        exact .repeatedServer before server after hsplit hbefore hname (hfault.resolve_left hname)
    · intro hbreaks
      cases hbreaks with
      | unnamedServer before server after hsplit hbefore hname =>
        exact ⟨before, server, after, hsplit, hbefore, .inl hname, (if_pos hname).symm⟩
      | repeatedServer before server after hsplit hbefore hname hearlier =>
        exact ⟨before, server, after, hsplit, hbefore, .inr hearlier, (if_neg hname).symm⟩

/-- The settings break no rule in front of the one that is broken by a fault. -/
def FirstBreaks (s : Settings) (fault : SettingsFault) : Prop :=
  ∃ before rule after, SettingsRule.all = before ++ rule :: after ∧
    (∀ earlier ∈ before, s.Keeps earlier) ∧ s.Breaks rule fault

/-- There is no fault exactly if every rule is kept. -/
theorem fault?_eq_none_iff (s : Settings) : s.fault? = none ↔ ∀ rule, s.Keeps rule := by
  have hall : ∀ rule, rule ∈ SettingsRule.all := by
    intro rule
    cases rule <;> decide
  simp only [fault?_eq_findSome?, List.findSome?_eq_none_iff, faultOf?_eq_none_iff, hall, true_imp_iff]

/-- The fault is that of the first rule that is broken. -/
theorem fault?_eq_some_iff (s : Settings) (fault : SettingsFault) :
    s.fault? = some fault ↔ s.FirstBreaks fault := by
  simp only [fault?_eq_findSome?, List.findSome?_eq_some_iff, faultOf?_eq_none_iff,
    faultOf?_eq_some_iff, FirstBreaks]
  exact exists_congr fun before => exists_congr fun rule => exists_congr fun after =>
    and_congr_right' and_comm

/-- Settings that are checked come out as they are, if they keep every rule. -/
theorem checked_eq_ok_iff (s t : Settings) : s.checked = .ok t ↔ t = s ∧ ∀ rule, s.Keeps rule := by
  rw [← fault?_eq_none_iff, checked]
  cases s.fault? with
  | none => simp [eq_comm]
  | some fault => simp

/-- Settings that are checked come out as the fault of the first rule that they break. -/
theorem checked_eq_error_iff (s : Settings) (error : SettingsError) :
    s.checked = .error error ↔ ∃ fault, error = .invalid fault ∧ s.FirstBreaks fault := by
  simp only [← fault?_eq_some_iff, checked]
  cases s.fault? with
  | none => simp
  | some fault => simp [eq_comm]

/-- Settings that are read from a text keep every rule. -/
theorem keeps_of_parse {s : Settings} {text : List Char} (h : parse text = .ok s) (rule : SettingsRule) :
    s.Keeps rule := by
  unfold parse at h
  split at h
  · next settings _ =>
    obtain ⟨rfl, hkeeps⟩ := (settings.checked_eq_ok_iff s).mp h
    exact hkeeps rule
  · exact nomatch h

/-- The fault of a server does not depend on the servers behind it. -/
theorem Breaks.take_append {s : Settings} {rule : SettingsRule} {fault : SettingsFault} {index : Nat}
    (h : s.Breaks rule fault) (hserver : fault.server? = some index) (others : List Server) :
    rule = .servers ∧
      ({ s with servers := s.servers.take (index + 1) ++ others } : Settings).Breaks rule fault := by
  have htake : ∀ {before after : List Server} {server : Server},
      s.servers = before ++ server :: after →
        s.servers.take (before.length + 1) ++ others = before ++ server :: others := by
    intro before after server hsplit
    rw [hsplit, List.take_length_add_append]
    simp
  cases h with
  | tickInterval | signalHistory | program | socketPath | logLevel => exact nomatch hserver
  | unnamedServer before server after hsplit hbefore hname =>
    obtain rfl := Option.some.inj hserver
    exact ⟨rfl, .unnamedServer before server others (htake hsplit) hbefore hname⟩
  | repeatedServer before server after hsplit hbefore hname hearlier =>
    obtain rfl := Option.some.inj hserver
    exact ⟨rfl, .repeatedServer before server others (htake hsplit) hbefore hname hearlier⟩

end Settings

/-! ## One entry for each server -/

/-- A store that gives the logins of different servers gives an entry for each of them. -/
theorem Store.GivesLogins.keys_perm {store : Store} {servers : List String} {logins : LoginsByServer}
    (h : store.GivesLogins servers logins) (hnodup : servers.Nodup) : logins.keys.Perm servers :=
  (List.perm_ext_iff_of_nodup logins.nodup_keys hnodup).mpr h.mem_keys_iff

namespace Settings

/-- The check is exact and reports the first fault.

Settings come out unchanged exactly if they keep every rule. Otherwise what comes out is the fault of the
first rule, in the sequence of the rules, that they break: for the servers, that of the first one that has no
name or the name of an earlier one, whatever servers stand behind it. After a refresh of the logins for
settings that were read from a text, there is exactly one entry for each server, with the store's answer for
it. -/
theorem checked_reports_first (s : Settings) :
    (∀ t, s.checked = .ok t ↔ t = s ∧ ∀ rule, s.Keeps rule) ∧
      (∀ error, s.checked = .error error ↔ ∃ fault, error = .invalid fault ∧ s.FirstBreaks fault) ∧
      (∀ fault index, s.checked = .error (.invalid fault) → fault.server? = some index → ∀ others,
        ({ s with servers := s.servers.take (index + 1) ++ others } : Settings).checked =
          .error (.invalid fault)) ∧
      ∀ text, parse text = .ok s → ∀ (store : Store) (cache refreshed : Cache),
        cache.refreshLogins store s.serverNames = .ok refreshed →
          refreshed.logins.keys.Perm s.serverNames ∧
            ∀ server ∈ s.servers, ∃ found, store.loginsOf server.name = .ok found ∧
              refreshed.logins.find? server.name = some found := by
  refine ⟨s.checked_eq_ok_iff, s.checked_eq_error_iff, ?_, ?_⟩
  · intro fault index hchecked hserver others
    obtain ⟨_, heq, before, rule, after, hall, hkeeps, hbreaks⟩ := (s.checked_eq_error_iff _).mp hchecked
    obtain rfl := SettingsError.invalid.inj heq
    obtain ⟨rfl, hstill⟩ := hbreaks.take_append hserver others
    refine (checked_eq_error_iff _ _).mpr ⟨fault, rfl, before, .servers, after, hall, ?_, hstill⟩
    -- the rules in front of the one about servers do not look at them
    intro earlier hearlier
    have hkept := hkeeps earlier hearlier
    cases earlier with
    | tickInterval | signalHistory | program | socketPath | logLevel => exact hkept
    | servers =>
      have hnodup : (before ++ SettingsRule.servers :: after).Nodup := hall ▸ by decide
      exact absurd rfl ((List.nodup_append.mp hnodup).2.2 _ hearlier _ List.mem_cons_self)
  · intro text hparse store cache refreshed hrefreshed
    have hnames : AreNames s.serverNames := keeps_of_parse hparse .servers
    rcases cache.refreshLogins_cases store s.serverNames with
      ⟨logins, hlogins, hgives⟩ | ⟨reason, hreason, -⟩
    · obtain rfl := Except.ok.inj (hlogins.symm.trans hrefreshed)
      exact ⟨hgives.keys_perm hnames.2, fun server hmem =>
        hgives.find?_eq server.name (List.mem_map_of_mem hmem)⟩
    · exact nomatch hreason.symm.trans hrefreshed

/-- Of two servers at fault the first one is reported, here one whose name was there before; and an answer of
the store is kept for each server of a text that names two. -/
theorem checked_reports_first_repeated :
    let s : Settings := { servers := [⟨"home", ""⟩, ⟨"work", ""⟩, ⟨"home", ""⟩, ⟨"", ""⟩] }
    let text := "[[servers]]\nname = \"work\"\n\n[[servers]]\nname = \"home\"\n".toList
    let valid : Settings := { servers := [⟨"work", ""⟩, ⟨"home", ""⟩] }
    let store := (({} : Directory).addLogin "home" ⟨"@alice:home", "A"⟩).store
    let refreshed : Cache := { logins := .ofList [("home", [⟨"@alice:home", "A"⟩]), ("work", [])] }
    s.checked = .error (.invalid (.repeatedServer 2 "home")) ∧
      (SettingsError.invalid (.repeatedServer 2 "home")).message =
        "validation error: servers[2].name \"home\" is defined more than once" ∧
      s.FirstBreaks (.repeatedServer 2 "home") ∧ parse text = .ok valid ∧
      Cache.refreshLogins {} store valid.serverNames = .ok refreshed ∧
      refreshed.logins.keys.Perm valid.serverNames := by
  intro s text valid store refreshed
  have hchecked : s.checked = .error (.invalid (.repeatedServer 2 "home")) := by decide +kernel
  obtain ⟨fault, heq, hfirst⟩ := ((checked_reports_first s).2.1 _).mp hchecked
  obtain rfl := SettingsError.invalid.inj heq
  have hparse : parse text = .ok valid := by decide +kernel
  have hrefreshed : Cache.refreshLogins {} store valid.serverNames = .ok refreshed := by decide +kernel
  exact ⟨hchecked, by decide +kernel, hfirst, hparse, hrefreshed,
    ((checked_reports_first valid).2.2.2 text hparse store {} refreshed hrefreshed).1⟩

end Settings

end DaemonBridge
