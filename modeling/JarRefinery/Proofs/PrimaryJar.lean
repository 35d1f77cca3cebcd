import JarRefinery.Proofs.Asking
import JarRefinery.Proofs.Delivery
import JarRefinery.Proofs.DocumentNames
import JarRefinery.Proofs.WholeDigests

/-!
# The jar of a side

The jar is whatever was at its place, or the whole body of an answer, and nothing in between. It is
handed on only where that body has the checksum that the metadata declares.
-/

namespace JarRefinery

/-! ### Targets that cannot be moved to -/

/-- A temporary file that cannot be moved to its target leaves nothing there that could be read. -/
theorem FileTree.Beside.not_holds {target sibling : Path} {before ready filled : FileTree}
    {place : Location} (hbeside : FileTree.Beside target before ready sibling place)
    (hdots : FileTree.endsInDots target = false) {contents : Bytes} {mode : Nat}
    (hfilled : Change { written := {place} } (ready.put place (.file contents mode)) filled)
    {error : FileError} (hrename : ((FileTree.rename sibling target).eval filled).1 = .error error)
    (body : Bytes) : ¬((FileTree.discard sibling).eval filled).2.Holds target body := by
  intro hholds
  obtain ⟨htarget, mode', hnode⟩ := FileTree.holds_iff.mp hholds
  obtain ⟨-, hreach, contents', mode'', hplace⟩ := hbeside.written hfilled
  have hdiscard := FileTree.discard_change filled sibling
  rw [hdiscard.here] at hnode
  -- discarding only takes away, so the target was a file before, and could be moved to
  have hfile := hdiscard.notWritten _ _ _ (Set.notMem_empty _) hnode
  have hmoves := hreach.eval_rename (htarget.mono hdiscard.here.symm fun location =>
    hdiscard.notMade location (Set.notMem_empty _)) hdots ((hbeside.normal filled.here).symm ▸ hplace)
    ⟨by simp [hfile], by simp [hfile]⟩
  rw [hmoves] at hrename
  cases hrename

namespace Http

variable {host : Host} {url : String}

/-! ### What attempts ask for -/

theorem prefix_reply (past : List String) : past <+: (reply host url past).2 := by
  have hasking : (Discipline.asking host []).AllowsRequests :=
    Discipline.asking.allowsNetwork.toAllowsRequests
  exact (open_keeps hasking url { files := ⟨[], []⟩, requests := past } rfl trivial).1

theorem prefix_asked (past : List String) (k : Nat) : past <+: asked host url past k := by
  induction k with
  | zero => exact List.prefix_rfl
  | succ k ih => exact ih.trans (prefix_reply _)

/-- An answer was asked for. -/
theorem length_lt_reply {past : List String} {response : Response}
    (hanswer : (reply host url past).1 = .ok response) :
    past.length < (reply host url past).2.length := by
  unfold reply open_ parseUrl at hanswer ⊢
  rcases hparse : Url.parse url with flaw | parsed
  · rw [hparse] at hanswer
    cases hanswer
  · have hsent : past ++ [firstAddress parsed] <+: ((send redirectLimit
        (if parsed.isAbsolute then parsed else parsed.fromTop)).eval host
          { files := ⟨[], []⟩, requests := past }).2.requests :=
      send_asks redirectLimit _ { files := ⟨[], []⟩, requests := past }
    have hlength := hsent.length_le
    rw [List.length_append, List.length_singleton] at hlength
    exact hlength

/-- The body that was delivered was asked for, and is what a download that fails left nowhere. -/
theorem not_holds_of_eval_downloadBy {world after : World} {piece maxAttempts : Int} {target : Path}
    (hrooted : ".." ∉ world.files.here) (hpiece : 1 ≤ piece)
    (hdots : FileTree.endsInDots target = false) {fault : Fault}
    (heval : (downloadBy piece maxAttempts url target).eval host world = (.error fault, after))
    {k : Nat} (hle : k ≤ (maxAttempts - 1).toNat) {response : Response}
    (hdelivered : Delivered host url world.requests k response)
    (hasked : after.requests = asked host url world.requests (k + 1)) (body : Bytes) :
    ¬after.files.Holds target body := by
  unfold downloadBy at heval
  rw [Action.eval_withSibling] at heval
  rcases FileTree.newSibling_cases hrooted target with
    ⟨ready, sibling, place, hbeside, hsibling⟩ | ⟨error, failed, -, hsibling⟩
  swap
  · -- without a temporary file nothing is asked for
    rw [hsibling] at heval
    obtain ⟨-, rfl⟩ := Prod.mk.inj heval
    have hlonger := length_lt_reply hdelivered.answer
    have hbefore : world.requests.length ≤ (asked host url world.requests k).length :=
      (prefix_asked world.requests k).length_le
    have hlength : world.requests.length = (asked host url world.requests (k + 1)).length :=
      congrArg List.length hasked
    rw [asked] at hlength
    omega
  rw [hsibling] at heval
  simp only [Action.eval_discarding] at heval
  obtain ⟨filled, hfetch⟩ := fetch_beside_returns hpiece hbeside hle hdelivered
  have hfilled :=
    Action.filling_change hbeside (fetch_writeBody_keeps hrooted maxAttempts sibling) hfetch
  unfold Action.moving at heval
  rw [Action.eval_bind_ok hfetch, Action.eval_bind, Action.eval_onFiles] at heval
  rcases hrename : (FileTree.rename sibling target).eval filled.files with ⟨error | moved, left⟩
  · have hsame : left = filled.files := by
      rcases FileTree.rename_cases filled.files sibling target with
        ⟨_, _, -, -, -, -, -, hmoved⟩ | ⟨_, hfailed⟩
      · cases hmoved.symm.trans hrename
      · exact (congrArg Prod.snd (hfailed.symm.trans hrename)).symm
    rw [hrename] at heval
    obtain ⟨-, rfl⟩ := Prod.mk.inj heval
    subst hsame
    exact hbeside.not_holds hdots hfilled (congrArg Prod.fst hrename) body
  · rw [hrename] at heval
    cases (Prod.mk.inj heval).1

/-- A whole body came in time, and replaced what was at the target. -/
structure Received (host : Host) (maxAttempts : Int) (url : String) (target : Path)
    (before after : World) (body : Bytes) : Prop where
  delivered : ∃ k ≤ (maxAttempts - 1).toNat, ∃ response,
    Delivered host url before.requests k response ∧ response.body = body ∧
      after.requests = asked host url before.requests (k + 1)
  replaced : after.files.Holds target body

section Download

variable {world after : World} {maxAttempts : Int} {target : Path} {result : Except Fault Nat}
  (hrooted : ".." ∉ world.files.here)
  (heval : (download maxAttempts url target).eval host world = (result, after))

include hrooted heval

theorem download_ok_iff (hdots : FileTree.endsInDots target = false) :
    (∃ n, result = .ok n) ↔ ∃ body, Received host maxAttempts url target world after body := by
  constructor
  · rintro ⟨n, rfl⟩
    obtain ⟨k, hle, response, hdelivered, hasked, hholds, -⟩ :=
      downloadBy_holds hrooted (by decide) maxAttempts heval
    exact ⟨response.body, ⟨k, hle, response, hdelivered, rfl, hasked⟩, hholds⟩
  · rintro ⟨body, ⟨k, hle, response, hdelivered, -, hasked⟩, hholds⟩
    rcases result with fault | n
    · exact absurd hholds
        (not_holds_of_eval_downloadBy hrooted (by decide) hdots heval hle hdelivered hasked body)
    · exact ⟨n, rfl⟩

/-- A download that fails leaves every file as it was. -/
theorem download_frame {fault : Fault} (hfault : result = .error fault) (location : Location) :
    SameOrAbove target world.files after.files location := by
  subst hfault
  have hreplaces : Replaces host world.files.here target (download maxAttempts url target) :=
    .downloadBy hrooted _ _ _
  have hchange := hreplaces world rfl
  rw [heval] at hchange
  exact Change.same_or_made hchange (Set.notMem_empty _) (Set.notMem_empty _)

end Download

end Http

/-! ### The checksum -/

/-- The checksum that is declared, if one is, is that of the body; its letters may be of either
case. -/
def Download.Admits (download : Download) (body : Bytes) : Prop :=
  ∀ expected, download.sha1 = some expected → expected ≠ "" →
    Release.lowerCase expected = Release.lowerCase (Bytes.hex (Sha1.hash.ofWhole body))

namespace Release

variable {host : Host} {world after : World} {maxAttempts : Int} {metadata : VersionMetadata}
  {side : String} {workspace : Workspace} {result : Except Fault Artifact}

theorem admits_iff {download : Download} {body : Bytes} :
    download.Admits body ↔ download.sha1.getD "" = "" ∨
      lowerCase (Bytes.hex (Sha1.hash.ofWhole body)) = lowerCase (download.sha1.getD "") := by
  unfold Download.Admits
  rcases download.sha1 with _ | expected
  · simp
  · simp only [Option.some.injEq, forall_eq', Option.getD_some]
    rw [eq_comm (a := lowerCase (Bytes.hex _)), or_iff_not_imp_left]

/-- A jar is checked against the checksum of all that it holds. -/
theorem eval_checkPrimary {download : Download} {target : Path} {body : Bytes}
    (hholds : world.files.Holds target body) :
    ∃ checked, (checkPrimary side download target).eval host world = (.ok checked, world) ∧
      (checked = .ok ⟨"raw", target, officialNamespace⟩ ∧ download.Admits body ∨
        (∃ fault, checked = .error fault ∧ fault.kind = .artifactFetchError) ∧
          ¬download.Admits body) := by
  unfold checkPrimary
  rw [admits_iff]
  by_cases hexpected : download.sha1.getD "" = ""
  · exact ⟨.ok ⟨"raw", target, officialNamespace⟩, by simp [hexpected], .inl ⟨rfl, .inl hexpected⟩⟩
  have hdigest : (FileDigest.ofFile target).eval host world =
      (.ok (FileDigest.ofWhole body), world) := FileDigest.eval_ofFileBy hholds (.inl (by decide))
  by_cases hsame : lowerCase (Bytes.hex (Sha1.hash.ofWhole body)) = lowerCase (download.sha1.getD "")
  · refine ⟨.ok ⟨"raw", target, officialNamespace⟩, ?_, .inl ⟨rfl, .inr hsame⟩⟩
    simp [hexpected, Action.eval_bind, hdigest, FileDigest.ofWhole, hsame]
  · refine ⟨.error (.of .artifactFetchError (side ++ " jar checksum mismatch: expected sha1 " ++
      download.sha1.getD "" ++ ", got " ++ (FileDigest.ofWhole body).sha1)), ?_,
      .inr ⟨⟨_, rfl, rfl⟩, by simp [hexpected, hsame]⟩⟩
    simp [hexpected, Action.eval_bind, hdigest, FileDigest.ofWhole, hsame]

/-- The place of a jar is named, whatever the side is. -/
theorem endsInDots_primary (workspace : Workspace) (side : String) :
    FileTree.endsInDots (workspace.primary side) = false := by
  obtain ⟨front, rest, -, hparts⟩ :=
    Path.parts_ofString side ".jar" 'j' (by decide) (by decide) (by decide)
  obtain ⟨above, hprimary⟩ := Path.parts_div workspace.root hparts
  have hnamed := (Path.named_of_mem (c := 'j') (by simp : 'j' ∈ (rest ++ ".jar").toList)
    (by decide)).2
  unfold Workspace.primary
  simp [FileTree.endsInDots, hprimary, hnamed]

/-- A download that is declared was received, and what it holds now is checked. -/
theorem eval_fetchPrimary (hrooted : ".." ∉ world.files.here)
    (heval : (fetchPrimary maxAttempts metadata side workspace).eval host world =
      (.ok result, after)) {download : Download}
    (hdeclared : metadata.primaryDownload side = some download) :
    (∃ body, Http.Received host maxAttempts download.url (workspace.primary side) world after body ∧
        (result = .ok ⟨"raw", workspace.primary side, officialNamespace⟩ ∧ download.Admits body ∨
          (∃ fault, result = .error fault ∧ fault.kind = .artifactFetchError) ∧
            ¬download.Admits body)) ∨
      (¬∃ body, Http.Received host maxAttempts download.url (workspace.primary side) world after
          body) ∧
        (∃ fault, result = .error fault ∧ fault.kind = .artifactFetchError) ∧
        ∀ location, SameOrAbove (workspace.primary side) world.files after.files location := by
  unfold fetchPrimary at heval
  rw [hdeclared] at heval
  obtain ⟨loaded, left, hcaught, heval⟩ := Action.of_eval_bind_ok heval
  obtain ⟨hdownload, -⟩ := Action.of_eval_caught_ok hcaught
  have hreceived := Http.download_ok_iff hrooted hdownload (endsInDots_primary workspace side)
  rcases loaded with fault | n
  · obtain ⟨hresult, rfl⟩ := Prod.mk.inj heval
    refine .inr ⟨fun hbody => ?_, ⟨_, (Except.ok.inj hresult).symm, rfl⟩,
      Http.download_frame hrooted hdownload rfl⟩
    obtain ⟨n, hok⟩ := hreceived.mpr hbody
    cases hok
  · obtain ⟨body, hbody⟩ := hreceived.mp ⟨n, rfl⟩
    obtain ⟨checked, hchecked, hadmits⟩ :=
      @eval_checkPrimary host _ side download _ _ hbody.replaced
    obtain ⟨hresult, rfl⟩ := Prod.mk.inj (hchecked.symm.trans heval)
    obtain rfl := Except.ok.inj hresult
    exact .inl ⟨body, hbody, hadmits⟩

/-- **Integrity.** A jar is handed on exactly where its download is declared, a whole body came in time
and replaced what was there, and that body has the checksum that is declared. It is the body and no
more. Everything else that is handed on is a failure to fetch it, and where no body came the jar of
before is still there. -/
theorem fetchPrimary_intact (hrooted : ".." ∉ world.files.here)
    (heval : (fetchPrimary maxAttempts metadata side workspace).eval host world =
      (.ok result, after)) :
    ((∃ artifact, result = .ok artifact) ↔ ∃ download body,
        metadata.primaryDownload side = some download ∧
          Http.Received host maxAttempts download.url (workspace.primary side) world after body ∧
          download.Admits body) ∧
      (∀ artifact, result = .ok artifact → artifact.space = officialNamespace ∧
        artifact.path = workspace.primary side ∧ ∃ download body,
          metadata.primaryDownload side = some download ∧
            Http.Received host maxAttempts download.url artifact.path world after body ∧
            download.Admits body ∧ after.files.Holds artifact.path body) ∧
      (∀ fault, result = .error fault → fault.kind = .artifactFetchError) ∧
      ((∀ download body, metadata.primaryDownload side = some download →
          ¬Http.Received host maxAttempts download.url (workspace.primary side) world after body) →
        ∀ location, SameOrAbove (workspace.primary side) world.files after.files location) := by
  rcases hdeclared : metadata.primaryDownload side with _ | download
  · unfold fetchPrimary at heval
    rw [hdeclared] at heval
    obtain ⟨hresult, rfl⟩ := Prod.mk.inj heval
    obtain rfl := Except.ok.inj hresult
    refine ⟨by simp, by simp, ?_, fun _ location => .inl rfl⟩
    rintro _ ⟨⟩
    rfl
  rcases eval_fetchPrimary hrooted heval hdeclared with
    ⟨body, hbody, ⟨rfl, hadmits⟩ | ⟨⟨fault, rfl, hkind⟩, hnot⟩⟩ | ⟨hnone, ⟨fault, rfl, hkind⟩, hsame⟩
  · refine ⟨⟨fun _ => ⟨download, body, rfl, hbody, hadmits⟩, fun _ => ⟨_, rfl⟩⟩, ?_, by simp, ?_⟩
    · rintro _ ⟨⟩
      exact ⟨rfl, rfl, download, body, rfl, hbody, hadmits, hbody.replaced⟩
    · exact fun hnone => absurd hbody (hnone download body rfl)
  · refine ⟨⟨by simp, ?_⟩, by simp, ?_, fun hnone => absurd hbody (hnone download body rfl)⟩
    · rintro ⟨_, other, ⟨⟩, hother, hadmits⟩
      exact absurd (hbody.replaced.unique hother.replaced ▸ hadmits) hnot
    · rintro _ ⟨⟩
      exact hkind
  · refine ⟨⟨by simp, ?_⟩, by simp, ?_, fun _ => hsame⟩
    · rintro ⟨_, body, ⟨⟩, hbody, -⟩
      exact absurd ⟨body, hbody⟩ hnone
    · rintro _ ⟨⟩
      exact hkind

/-- A network that is busy once and answers with three letters then. -/
def busyOnce : Host :=
  { Host.idle with
    network := fun past _ =>
      if past.isEmpty then .response 503 none [] none else .response 200 none [97, 98, 99] none }

/-- A jar of an earlier run is where the new one goes. -/
def staleJar : World where
  files := ⟨[(["work"], .directory), (["work", "client.jar"], .file [1, 2] 0o644)], ["work"]⟩

/-- The checksum of the letters, in capitals. -/
def lettersDeclared : VersionMetadata :=
  ⟨"1.0", none, [("client", ⟨"http://h/", some "A9993E364706816ABA3E25717850C26C9CD0D89D", none⟩)], []⟩

theorem fetchPrimary_intact_busyOnce :
    (∃ after body, ∃ download : Download,
      (fetchPrimary 2 lettersDeclared "client" ⟨⟨"", []⟩⟩).eval busyOnce staleJar =
        (.ok (.ok ⟨"raw", ⟨"", ["client.jar"]⟩, officialNamespace⟩), after) ∧
      Http.Received busyOnce 2 download.url ⟨"", ["client.jar"]⟩ staleJar after body ∧
      download.Admits body ∧ after.files.Holds ⟨"", ["client.jar"]⟩ [97, 98, 99]) ∧
    ∃ fault after, (fetchPrimary 2 lettersDeclared "client" ⟨⟨"", []⟩⟩).eval .idle staleJar =
        (.ok (.error fault), after) ∧ fault.kind = .artifactFetchError := by
  have hrooted : ".." ∉ staleJar.files.here := by decide
  constructor
  · have hreturned : (fetchPrimary 2 lettersDeclared "client" ⟨⟨"", []⟩⟩).eval busyOnce staleJar =
        (.ok (.ok ⟨"raw", ⟨"", ["client.jar"]⟩, officialNamespace⟩),
          ((fetchPrimary 2 lettersDeclared "client" ⟨⟨"", []⟩⟩).eval busyOnce staleJar).2) :=
      Action.eq_of_value (by decide +kernel)
    have hcontents : ((fetchPrimary 2 lettersDeclared "client" ⟨⟨"", []⟩⟩).eval busyOnce
        staleJar).2.files.Holds ⟨"", ["client.jar"]⟩ [97, 98, 99] := by decide +kernel
    obtain ⟨-, hartifact, -⟩ := fetchPrimary_intact hrooted hreturned
    obtain ⟨-, -, download, body, -, hbody, hadmits, -⟩ := hartifact _ rfl
    exact ⟨_, body, download, hreturned, hbody, hadmits, hcontents⟩
  · have hcaught : ∃ fault, ((fetchPrimary 2 lettersDeclared "client" ⟨⟨"", []⟩⟩).eval .idle
        staleJar).1.toOption = some (.error fault) := by
      refine ⟨.of .artifactFetchError ("Failed to download client jar from http://h/: " ++
        (Fault.retriesExceeded "http://h/" 2 (.of .connectError "")).message), ?_⟩
      decide +kernel
    obtain ⟨fault, hfault⟩ := hcaught
    have hreturned := Action.eq_of_value hfault
    obtain ⟨-, -, hkind, -⟩ := fetchPrimary_intact hrooted hreturned
    exact ⟨fault, _, hreturned, hkind fault rfl⟩

end Release

end JarRefinery
