import DaemonBridge.Proofs.Cache.Snapshot
import DaemonBridge.Proofs.Directory.Wire

/-!
# Refreshes while the worker writes

A refresh asks the store for one server after the other, and the worker may replace what is stored
before each request. The logins of a server are then those of the moment at which the server was asked
for, and the whole need not be what was stored at any one moment: such a refresh is torn. The statements
below say exactly when a refresh is torn, and for which servers that can happen at all. Nothing is
assumed of what is stored but that a store can be read from it, so they hold of a directory in memory
and of a file alike.
-/

namespace DaemonBridge

/-! ## Requests and writes -/

section Requests

variable {σ : Type}

/-- The servers that a refresh asks for, each with what is stored when it is asked for. Before that the
worker has stored the listed contents one after the other; at first `now` is stored. -/
def askedDuring (now : σ) : List (String × List σ) → List (String × σ)
  | [] => []
  | (server, writes) :: rest =>
    (server, writes.getLastD now) :: askedDuring (writes.getLastD now) rest

/-- Everything that is stored at some moment of a refresh, in the order in which it is stored. -/
def storedDuring (now : σ) (schedule : List (String × List σ)) : List σ :=
  now :: schedule.flatMap Prod.snd

/-- The content is what the last request for the server has found. -/
def LastAsked (asked : List (String × σ)) (server : String) (content : σ) : Prop :=
  ∃ before after, asked = before ++ (server, content) :: after ∧ server ∉ after.map Prod.fst

/-- Every server of a schedule is asked for, in order. -/
theorem map_fst_askedDuring (now : σ) (schedule : List (String × List σ)) :
    (askedDuring now schedule).map Prod.fst = schedule.map Prod.fst := by
  induction schedule generalizing now with
  | nil => rfl
  | cons request rest ih =>
    obtain ⟨server, writes⟩ := request
    rw [askedDuring, List.map_cons, List.map_cons, ih]

/-- What a request finds is stored at some moment of the refresh. -/
theorem stored_of_mem_askedDuring {now : σ} {schedule : List (String × List σ)} {request : String × σ}
    (h : request ∈ askedDuring now schedule) : request.2 ∈ storedDuring now schedule := by
  induction schedule generalizing now with
  | nil => exact absurd h List.not_mem_nil
  | cons first rest ih =>
    obtain ⟨server, writes⟩ := first
    have hlast : writes.getLastD now ∈ now :: writes := List.getLastD_mem_cons
    have hstored : storedDuring now ((server, writes) :: rest) =
        (now :: writes) ++ rest.flatMap Prod.snd := rfl
    rw [hstored]
    rcases List.mem_cons.mp h with rfl | h
    · exact List.mem_append_left _ hlast
    · rcases List.mem_cons.mp (ih h) with heq | hmem
      · rw [heq]
        exact List.mem_append_left _ hlast
      · exact List.mem_append_right _ hmem

/-- While nothing is written, every request finds the same. -/
theorem askedDuring_silent (now : σ) (servers : List String) :
    askedDuring now (servers.map fun server => (server, [])) = servers.map fun server => (server, now) := by
  induction servers with
  | nil => rfl
  | cons server rest ih =>
    rw [List.map_cons, List.map_cons, askedDuring]
    exact congrArg (_ :: ·) ih

/-- When something is written only before the last request, only the last request finds it. -/
theorem askedDuring_silent_append (now : σ) (servers : List String) (last : String) (writes : List σ) :
    askedDuring now ((servers.map fun server => (server, [])) ++ [(last, writes)]) =
      (servers.map fun server => (server, now)) ++ [(last, writes.getLastD now)] := by
  induction servers with
  | nil => rfl
  | cons server rest ih =>
    rw [List.map_cons, List.map_cons, List.cons_append, List.cons_append, askedDuring]
    exact congrArg (_ :: ·) ih

/-- Before the first request and up to the last, nothing else is stored then. -/
theorem storedDuring_silent_append (now : σ) (servers : List String) (last : String)
    (writes : List σ) :
    storedDuring now ((servers.map fun server => (server, [])) ++ [(last, writes)]) = now :: writes := by
  have hsilent : (servers.map fun server => (server, ([] : List σ))).flatMap Prod.snd = [] :=
    List.flatMap_eq_nil_iff.mpr fun request hrequest => by
      obtain ⟨server, -, rfl⟩ := List.mem_map.mp hrequest
      rfl
  rw [storedDuring, List.flatMap_append, hsilent, List.nil_append, List.flatMap_singleton]

/-- One of the requests for a server is the last. -/
theorem exists_lastAsked {asked : List (String × σ)} {server : String}
    (h : server ∈ asked.map Prod.fst) : ∃ content, LastAsked asked server content := by
  induction asked with
  | nil => exact absurd h List.not_mem_nil
  | cons request rest ih =>
    obtain ⟨name, content⟩ := request
    by_cases hrest : server ∈ rest.map Prod.fst
    · obtain ⟨content, before, after, hsplit, hlast⟩ := ih hrest
      exact ⟨content, _ :: before, after, by rw [hsplit, List.cons_append], hlast⟩
    · rw [List.map_cons, List.mem_cons] at h
      obtain rfl := h.resolve_right hrest
      exact ⟨content, [], rest, rfl, hrest⟩

/-- A server with a last request is asked for. -/
theorem LastAsked.mem {asked : List (String × σ)} {server : String} {content : σ}
    (h : LastAsked asked server content) : (server, content) ∈ asked := by
  obtain ⟨before, after, hsplit, -⟩ := h
  rw [hsplit]
  exact List.mem_append_right _ List.mem_cons_self

end Requests

/-! ## Torn refreshes -/

namespace Cache

section Refresh

variable {σ : Type}

/-- Load the logins while the worker writes. -/
def refreshLoginsDuring (cache : Cache) (store : σ → Store) (now : σ)
    (schedule : List (String × List σ)) : Except StoreError Cache :=
  cache.replaceLogins ((askedDuring now schedule).map fun (server, content) =>
    (server, (store content).loginsOf server))

/-- The refreshed logins are not those of anything that was stored during the refresh. -/
def IsTorn (store : σ → Store) (now : σ) (schedule : List (String × List σ)) (refreshed : Cache) : Prop :=
  ∀ content ∈ storedDuring now schedule,
    ¬ (store content).GivesLogins (schedule.map Prod.fst) refreshed.logins

variable {store : σ → Store} {now : σ} {schedule : List (String × List σ)} {cache refreshed : Cache}

/-- Without writes, this is a refresh from what is stored. -/
theorem refreshLoginsDuring_silent (cache : Cache) (store : σ → Store) (now : σ)
    (servers : List String) :
    cache.refreshLoginsDuring store now (servers.map fun server => (server, [])) =
      cache.refreshLogins (store now) servers := by
  rw [refreshLoginsDuring, askedDuring_silent, List.map_map]
  rfl

/-- The refreshed logins of a server are the answer to the last request for it. -/
theorem find?_of_lastAsked (h : cache.refreshLoginsDuring store now schedule = .ok refreshed)
    {server : String} {content : σ} (hlast : LastAsked (askedDuring now schedule) server content) :
    ∃ found, (store content).loginsOf server = .ok found ∧
      refreshed.logins.find? server = some found := by
  rcases cache.replaceLogins_cases ((askedDuring now schedule).map fun (server, content) =>
    (server, (store content).loginsOf server)) with ⟨logins, hlogins, hmade⟩ | ⟨reason, hreason, -⟩
  · obtain rfl := Except.ok.inj (h.symm.trans hlogins)
    obtain ⟨before, after, hsplit, hnot⟩ := hlast
    refine hmade.find?_eq _ server _ _ (by rw [hsplit, List.map_append, List.map_cons]) ?_
    rwa [List.map_map]
  · exact nomatch h.symm.trans hreason

/-- The refreshed logins are those of the servers asked for and of no other. -/
theorem mem_keys_refreshLoginsDuring (h : cache.refreshLoginsDuring store now schedule = .ok refreshed)
    (server : String) : server ∈ refreshed.logins.keys ↔ server ∈ schedule.map Prod.fst := by
  rcases cache.replaceLogins_cases ((askedDuring now schedule).map fun (server, content) =>
    (server, (store content).loginsOf server)) with ⟨logins, hlogins, hmade⟩ | ⟨reason, hreason, -⟩
  · obtain rfl := Except.ok.inj (h.symm.trans hlogins)
    rw [hmade.mem_keys_iff, List.map_map, ← map_fst_askedDuring now schedule]
    rfl
  · exact nomatch h.symm.trans hreason

/-- The refreshed logins are those of a content exactly when the content agrees, for each server, with
what the last request for it has found. -/
theorem givesLogins_iff (h : cache.refreshLoginsDuring store now schedule = .ok refreshed)
    (content : σ) :
    (store content).GivesLogins (schedule.map Prod.fst) refreshed.logins ↔
      ∀ server found, LastAsked (askedDuring now schedule) server found →
        (store content).loginsOf server = (store found).loginsOf server := by
  constructor
  · intro hgives server found hlast
    obtain ⟨logins, hanswer, hfind⟩ := find?_of_lastAsked h hlast
    have hmem : server ∈ schedule.map Prod.fst := by
      rw [← map_fst_askedDuring now schedule]
      exact List.mem_map_of_mem hlast.mem
    obtain ⟨logins', hanswer', hfind'⟩ := hgives.find?_eq server hmem
    rw [hanswer, hanswer', Option.some.inj (hfind'.symm.trans hfind)]
  · intro hagrees
    refine ⟨mem_keys_refreshLoginsDuring h, fun server hmem => ?_⟩
    rw [← map_fst_askedDuring now schedule] at hmem
    obtain ⟨found, hlast⟩ := exists_lastAsked hmem
    rw [hagrees server found hlast]
    exact find?_of_lastAsked h hlast

/-- A refresh is torn exactly when everything that was stored meanwhile disagrees, for some server, with
what the last request for it has found. -/
theorem isTorn_iff (h : cache.refreshLoginsDuring store now schedule = .ok refreshed) :
    IsTorn store now schedule refreshed ↔ ∀ content ∈ storedDuring now schedule,
      ∃ server found, LastAsked (askedDuring now schedule) server found ∧
        (store content).loginsOf server ≠ (store found).loginsOf server := by
  refine forall₂_congr fun content _ => ?_
  rw [givesLogins_iff h]
  push Not
  rfl

/-- A refresh that asks for no two different servers is never torn. -/
theorem not_isTorn_of_single (h : cache.refreshLoginsDuring store now schedule = .ok refreshed)
    (hsame : ∀ a ∈ schedule.map Prod.fst, ∀ b ∈ schedule.map Prod.fst, a = b) :
    ¬ IsTorn store now schedule refreshed := by
  intro htorn
  have hnames := map_fst_askedDuring now schedule
  cases hasked : askedDuring now schedule with
  | nil =>
    -- Nothing is asked for, so that anything stored agrees with it.
    obtain ⟨server, found, hlast, -⟩ := (isTorn_iff h).mp htorn now List.mem_cons_self
    rw [hasked] at hlast
    exact absurd hlast.mem List.not_mem_nil
  | cons request rest =>
    have hfirst : request.1 ∈ (askedDuring now schedule).map Prod.fst := by
      rw [hasked]
      exact List.mem_cons_self
    obtain ⟨content, hlast⟩ := exists_lastAsked hfirst
    obtain ⟨server, found, hfound, hne⟩ :=
      (isTorn_iff h).mp htorn content (stored_of_mem_askedDuring hlast.mem)
    have hserver : server = request.1 :=
      hsame _ (hnames ▸ List.mem_map_of_mem hfound.mem) _ (hnames ▸ hfirst)
    obtain ⟨logins, hanswer, hfind⟩ := find?_of_lastAsked h hfound
    obtain ⟨logins', hanswer', hfind'⟩ := find?_of_lastAsked h hlast
    rw [hserver] at hfind hanswer hne
    exact hne (by rw [hanswer, hanswer', Option.some.inj (hfind.symm.trans hfind')])

/-- A refresh is torn when the worker writes only before the last request, as long as nothing stored has
both the logins that this request finds and those that an earlier one has found. -/
theorem isTorn_of_last {servers : List String} {last other : String} {writes : List σ}
    (h : cache.refreshLoginsDuring store now
      ((servers.map fun server => (server, [])) ++ [(last, writes)]) = .ok refreshed)
    (hother : other ∈ servers) (hne : other ≠ last)
    (hdiffers : ∀ content ∈ now :: writes,
      (store content).loginsOf last = (store (writes.getLastD now)).loginsOf last →
        (store content).loginsOf other ≠ (store now).loginsOf other) :
    IsTorn store now ((servers.map fun server => (server, [])) ++ [(last, writes)]) refreshed := by
  have hlast : LastAsked (askedDuring now ((servers.map fun server => (server, [])) ++
      [(last, writes)])) last (writes.getLastD now) :=
    ⟨_, [], askedDuring_silent_append now servers last writes, List.not_mem_nil⟩
  have hearlier : LastAsked (askedDuring now ((servers.map fun server => (server, [])) ++
      [(last, writes)])) other now := by
    have hnames : other ∈ (servers.map fun server => (server, now)).map Prod.fst := by
      rw [List.map_map]
      exact List.mem_map.mpr ⟨other, hother, rfl⟩
    obtain ⟨content, before, after, hsplit, hnot⟩ := exists_lastAsked hnames
    obtain ⟨server, -, heq⟩ := List.mem_map.mp
      (hsplit ▸ List.mem_append_right before List.mem_cons_self :
        (other, content) ∈ servers.map fun server => (server, now))
    obtain rfl : now = content := congrArg Prod.snd heq
    refine ⟨before, after ++ [(last, writes.getLastD now)], ?_, fun hmem => ?_⟩
    · rw [askedDuring_silent_append, hsplit, List.append_assoc, List.cons_append]
    · rw [List.map_append, List.mem_append, List.map_singleton, List.mem_singleton] at hmem
      exact hmem.elim hnot hne
  refine (isTorn_iff h).mpr fun content hcontent => ?_
  rw [storedDuring_silent_append] at hcontent
  by_cases heq : (store content).loginsOf last = (store (writes.getLastD now)).loginsOf last
  · exact ⟨other, now, hearlier, hdiffers content hcontent heq⟩
  · exact ⟨last, _, hlast, heq⟩

/-- A refresh succeeds when everything that is stored meanwhile answers. -/
theorem exists_refreshed (cache : Cache)
    (hanswers : ∀ content ∈ storedDuring now schedule, ∀ server,
      ∃ found, (store content).loginsOf server = .ok found) :
    ∃ refreshed, cache.refreshLoginsDuring store now schedule = .ok refreshed := by
  rcases cache.replaceLogins_cases ((askedDuring now schedule).map fun (server, content) =>
    (server, (store content).loginsOf server)) with ⟨logins, hlogins, -⟩ | ⟨_, _, server, reason, hmem⟩
  · exact ⟨_, hlogins⟩
  · obtain ⟨request, hasked, hrequest⟩ := List.mem_map.mp hmem
    obtain ⟨found, hfound⟩ := hanswers request.2 (stored_of_mem_askedDuring hasked) request.1
    exact nomatch hfound.symm.trans (congrArg Prod.snd hrequest)

end Refresh

/-! ## Servers for which a refresh can be torn -/

section CanTear

variable {σ : Type}

/-- Some successful refresh of the servers, begun while the content is stored, is torn. -/
def CanTear (store : σ → Store) (now : σ) (servers : List String) : Prop :=
  ∃ schedule cache refreshed, schedule.map Prod.fst = servers ∧
    refreshLoginsDuring cache store now schedule = .ok refreshed ∧ IsTorn store now schedule refreshed

variable {store : σ → Store} {now : σ} {d : Directory}

/-- Two logins that are added one after the other while a refresh goes on can tear it: the one on a
server already asked for is missed, and the one added later, on the server asked for last, is found. -/
theorem canTear_of_last (write : Directory → σ)
    (hwrite : ∀ d server, (store (write d)).loginsOf server = .ok (d.loginsOf server))
    (hnow : ∀ server, (store now).loginsOf server = .ok (d.loginsOf server))
    {servers : List String} {last other : String} (hother : other ∈ servers) (hne : other ≠ last) :
    CanTear store now (servers ++ [last]) := by
  let login : Login := ⟨"alice", "PHONE"⟩
  let once := d.addLogin other login
  let twice := once.addLogin last login
  have hanswers : ∀ content ∈ [now, write once, write twice], ∀ server,
      ∃ found, (store content).loginsOf server = .ok found := by
    simp only [List.forall_mem_cons]
    exact ⟨fun server => ⟨_, hnow server⟩, fun server => ⟨_, hwrite _ server⟩,
      fun server => ⟨_, hwrite _ server⟩, nofun⟩
  have hdiffers : ∀ content ∈ [now, write once, write twice],
      (store content).loginsOf last = (store (write twice)).loginsOf last →
        (store content).loginsOf other ≠ (store now).loginsOf other := by
    have honce : once.loginsOf last = d.loginsOf last := d.loginsOf_addLogin_of_ne login hne.symm
    have htwice : twice.loginsOf last = d.loginsOf last ++ [login] := by
      rw [once.loginsOf_addLogin, honce]
    have hkept : twice.loginsOf other = d.loginsOf other ++ [login] := by
      rw [once.loginsOf_addLogin_of_ne login hne, d.loginsOf_addLogin]
    have hgrown : ∀ logins : List Login, logins ≠ logins ++ [login] := fun logins hsame =>
      List.cons_ne_nil _ _ (List.self_eq_append_right.mp hsame)
    simp only [List.forall_mem_cons, hnow, hwrite, ne_eq, Except.ok.injEq]
    refine ⟨fun hsame => ?_, fun hsame => ?_, fun _ => ?_, nofun⟩
    · exact absurd (hsame.trans htwice) (hgrown _)
    · exact absurd (honce.symm.trans (hsame.trans htwice)) (hgrown _)
    · exact fun hsame => hgrown _ (hsame.symm.trans hkept)
  rw [← storedDuring_silent_append now servers last] at hanswers
  obtain ⟨refreshed, hrefreshed⟩ := exists_refreshed {} hanswers
  refine ⟨_, _, refreshed, ?_, hrefreshed, isTorn_of_last hrefreshed hother hne hdiffers⟩
  rw [List.map_append, List.map_map]
  exact congrArg (· ++ [last]) (List.map_id servers)

/-- A refresh can be torn exactly when it asks for two different servers. -/
theorem canTear_iff (write : Directory → σ)
    (hwrite : ∀ d server, (store (write d)).loginsOf server = .ok (d.loginsOf server))
    (hnow : ∀ server, (store now).loginsOf server = .ok (d.loginsOf server)) (servers : List String) :
    CanTear store now servers ↔ ∃ a ∈ servers, ∃ b ∈ servers, a ≠ b := by
  constructor
  · rintro ⟨schedule, cache, refreshed, rfl, h, htorn⟩
    by_contra hsame
    push Not at hsame
    exact not_isTorn_of_single h hsame htorn
  · rintro ⟨a, ha, b, hb, hne⟩
    cases servers using List.reverseRecOn with
    | nil => exact absurd ha List.not_mem_nil
    | append_singleton before last =>
      -- One of the two is not the last server, and is asked for before it.
      rw [List.mem_append, List.mem_singleton] at ha hb
      by_cases heq : a = last
      · exact canTear_of_last write hwrite hnow (hb.resolve_right (heq ▸ hne.symm)) (heq ▸ hne.symm)
      · exact canTear_of_last write hwrite hnow (ha.resolve_right heq) heq

end CanTear

/-- Asking for the servers one after the other, a refresh can mix the logins of several moments. While
nothing is written it loads what is stored. Otherwise it is torn exactly when everything that was stored
meanwhile disagrees, for some server, with what the last request for it has found. That can happen, with
a directory in memory and with a file alike, exactly when the refresh asks for two different servers. -/
theorem refreshLogins_torn_iff (servers : List String) :
    (∀ (σ : Type) (store : σ → Store) (now : σ) (cache : Cache),
      cache.refreshLoginsDuring store now (servers.map fun server => (server, [])) =
        cache.refreshLogins (store now) servers) ∧
    (∀ (σ : Type) (store : σ → Store) (now : σ) (schedule : List (String × List σ))
      (cache refreshed : Cache), cache.refreshLoginsDuring store now schedule = .ok refreshed →
        (IsTorn store now schedule refreshed ↔ ∀ content ∈ storedDuring now schedule,
          ∃ server found, LastAsked (askedDuring now schedule) server found ∧
            (store content).loginsOf server ≠ (store found).loginsOf server)) ∧
    (∀ d : Directory, CanTear Directory.store d servers ↔ ∃ a ∈ servers, ∃ b ∈ servers, a ≠ b) ∧
    ∀ (path : String) (content : PathContent) (d : Directory), content.directory path = .ok d →
      (CanTear (PathContent.store path) content servers ↔ ∃ a ∈ servers, ∃ b ∈ servers, a ≠ b) := by
  refine ⟨fun σ store now cache => cache.refreshLoginsDuring_silent store now servers,
    fun σ store now schedule cache refreshed h => isTorn_iff h, fun d => ?_, ?_⟩
  · exact canTear_iff id (fun _ _ => rfl) (fun _ => rfl) servers
  · intro path content d hcontent
    exact canTear_iff Directory.written (fun d => PathContent.loginsOf_store (d.directory_written path))
      (PathContent.loginsOf_store hcontent) servers

/-- A refresh asks for the logins at home and at work, and a new directory is put in the place of the old
one between the two requests: the refreshed logins are the old ones at home and the new ones at work,
which no directory has ever held together. -/
theorem refreshLogins_torn_between_two :
    let before : Directory := { logins := .ofList [("home", [⟨"alice", "OLD"⟩]), ("work", [])] }
    let after : Directory := { logins := .ofList [("home", []), ("work", [⟨"alice", "NEW"⟩])] }
    let refreshed : Cache :=
      { logins := .ofList [("home", [⟨"alice", "OLD"⟩]), ("work", [⟨"alice", "NEW"⟩])] }
    let schedule := [("home", []), ("work", [after])]
    refreshLoginsDuring {} Directory.store before schedule = .ok refreshed ∧
      IsTorn Directory.store before schedule refreshed := by
  intro before after refreshed schedule
  have h : refreshLoginsDuring {} Directory.store before schedule = .ok refreshed := by decide
  have hhome : LastAsked (askedDuring before schedule) "home" before :=
    ⟨[], [("work", after)], rfl, by decide⟩
  have hwork : LastAsked (askedDuring before schedule) "work" after :=
    ⟨[("home", before)], [], rfl, by decide⟩
  refine ⟨h, ((refreshLogins_torn_iff ["home", "work"]).2.1 _ _ _ _ _ _ h).mpr ?_⟩
  refine List.forall_mem_cons.mpr ⟨⟨"work", after, hwork, by decide⟩, ?_⟩
  exact List.forall_mem_cons.mpr ⟨⟨"home", before, hhome, by decide⟩, nofun⟩

end Cache

end DaemonBridge
