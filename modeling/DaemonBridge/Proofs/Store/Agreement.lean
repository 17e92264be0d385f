import DaemonBridge.Proofs.Directory.Wire

/-!
# Two stores of one directory

Whoever keeps the directory changes it in five ways (`Directory.Change`). Whatever the changes were, a store
that reads a file with any JSON text of the directory gives the answers of the store in memory; a file that
is missing is a directory to which nothing has happened; and a text that is no directory gives no answer at
all, however much of it is well formed (`Directory.file_agrees`).
-/

namespace DaemonBridge

namespace Directory

/-- What the owner of a directory does to it. -/
inductive Change where
  | setLogins (server : String) (logins : List Login)
  | addLogin (server : String) (login : Login)
  | removeServer (server : String)
  | putDevice (account : String) (device : Device)
  | setDevices (devices : DevicesByAccount)

/-- The directory after one change. -/
def change (d : Directory) : Change → Directory
  | .setLogins server logins => d.setLogins server logins
  | .addLogin server login => d.addLogin server login
  | .removeServer server => d.removeServer server
  | .putDevice account device => d.putDevice account device
  | .setDevices devices => d.setDevices devices

/-- The directory to which the changes were made, one after the other, from an empty one. -/
def ofChanges (changes : List Change) : Directory :=
  changes.foldl change {}

end Directory

namespace PathContent

/-- A file that holds a directory is a store of it. -/
theorem store_of_directory {path : String} {content : PathContent} {d : Directory}
    (h : content.directory path = .ok d) : content.store path = d.store := by
  rw [store, h]
  rfl

/-- A file with a text is a store of the directory that the text is, or all its answers are that it is
corrupt. -/
theorem store_file_cases (path : String) (text : List Char) :
    (∃ d, (Json.Document.ofChars text).decode Directory.decoder = .ok d ∧
        (file (Text.encode text)).store path = d.store) ∨
      (∀ d, (Json.Document.ofChars text).decode Directory.decoder ≠ .ok d) ∧
        (file (Text.encode text)).store path = .ofLoad (.error (.corrupt path)) := by
  cases hread : (Json.Document.ofChars text).decode Directory.decoder with
  | ok d =>
    have hcontent : (file (Text.encode text)).directory path = .ok d := by
      simp only [directory, Text.decode?_encode, hread]
    exact .inl ⟨d, rfl, store_of_directory hcontent⟩
  | error reason =>
    have hcontent : (file (Text.encode text)).directory path = .error (.corrupt path) := by
      simp only [directory, Text.decode?_encode, hread]
    refine .inr ⟨fun d hd => ?_, by rw [store, hcontent]⟩
    cases hd

end PathContent

namespace Directory

/-- After any changes, a file with any JSON text of the directory answers every request as the directory in
memory does. A missing file answers as an empty directory. A text that is not one of a directory makes every
request fail as corrupt. -/
theorem file_agrees (changes : List Change) (path : String) :
    let d := ofChanges changes
    (∀ text, d.toJson.IsWrittenAs text →
      let file := (PathContent.file (Text.encode text)).store path
      (∀ server, file.loginsOf server = d.store.loginsOf server) ∧
        file.allLogins = d.store.allLogins ∧ file.allDevices = d.store.allDevices) ∧
      PathContent.missing.store path = (ofChanges []).store ∧
      ∀ text, (∀ other, (Json.Document.ofChars text).decode decoder ≠ .ok other) →
        let file := (PathContent.file (Text.encode text)).store path
        (∀ server, file.loginsOf server = .error (.corrupt path)) ∧
          file.allLogins = .error (.corrupt path) ∧ file.allDevices = .error (.corrupt path) := by
  refine ⟨fun text htext => ?_, rfl, fun text hother => ?_⟩
  · have hread := decode_of_isWrittenAs htext
    obtain ⟨d, hd, hstore⟩ | ⟨hnone, -⟩ := PathContent.store_file_cases path text
    · obtain rfl : ofChanges changes = d := Except.ok.inj (hread.symm.trans hd)
      rw [hstore]
      exact ⟨fun _ => rfl, rfl, rfl⟩
    · exact absurd hread (hnone _)
  · obtain ⟨d, hd, -⟩ | ⟨-, hstore⟩ := PathContent.store_file_cases path text
    · exact absurd hd (hother d)
    · rw [hstore]
      exact ⟨fun _ => rfl, rfl, rfl⟩

/-- A file shows the logins in the order of the servers, although they were made in another order; and one
whose second half is no snapshot keeps back the logins of its well-formed first half. -/
theorem file_agrees_filled :
    let alice : Login := ⟨"@alice:home", "A"⟩
    let bob : Login := ⟨"@bob:work", "B"⟩
    let changes : List Change := [.addLogin "work" bob, .addLogin "home" alice,
      .putDevice "@alice:home" ⟨"@carol:away", "C", "phone", "", true, false⟩]
    let file := (ofChanges changes).written.store "state.json"
    let torn := (PathContent.file (Text.encode
      "\x7b\"users\":\x7b\"home\":[]\x7d,\"devices\":[]\x7d".toList)).store "state.json"
    file.loginsOf "work" = .ok [bob] ∧ file.allLogins = .ok [alice, bob] ∧
      file.allDevices = .ok (ofChanges changes).devices ∧
      torn.loginsOf "home" = .error (.corrupt "state.json") := by
  intro alice bob changes file torn
  obtain ⟨hfile, -, htorn⟩ := file_agrees changes "state.json"
  obtain ⟨hof, hall, hdevices⟩ :=
    hfile _ (Json.Value.isWrittenAs_compact (ofChanges changes).isPlain_toJson)
  refine ⟨(hof "work").trans ?_, hall.trans ?_, hdevices, (htorn _ fun d hd => ?_).1 "home"⟩
  · decide
  · decide
  · have hnone : ((Json.Document.ofChars
        "\x7b\"users\":\x7b\"home\":[]\x7d,\"devices\":[]\x7d".toList).decode decoder).toOption.isSome =
          false := by decide
    rw [hd] at hnone
    exact nomatch hnone

end Directory

end DaemonBridge
