import PingWaf.Auth.Proof.Both
import PingWaf.Auth.ClaimHeaders

/-!
# Identity headers are not the client's

The lines that pass for a configured header (`identityLines`) become those of the session whatever
the client sent; after `protectFromConnectionHeader` no `Connection` line nominates one of them, so
that they reach the upstream (`identity_is_the_sessions`).
-/

namespace PingWaf.Auth

open Text List
open Plugin (HeaderLine RequestHeader insertLine insertLine_same insertLine_other
  filter_filter_ne filter_insertLine_neg isVisibleAscii latin1)

/-! ## Lines of a name -/

section Lines

variable {p : String → Bool} {name : String}

theorem filter_insertLine_pos (h : p name = true) (value : List UInt8) (lines : List HeaderLine) :
    (insertLine name value lines).filter (fun l => p l.name) =
      insertLine name value (lines.filter fun l => p l.name) := by
  induction lines with
  | nil => simp [insertLine, h]
  | cons l _ ih =>
    by_cases hl : l.name = name
    · have hpl : p l.name = true := hl ▸ h
      simp only [insertLine_same hl, filter_cons, h, hpl, if_true, filter_filter,
        Bool.and_comm]
    · cases hpl : p l.name with
      | true => simp only [insertLine_other hl, filter_cons, hpl, if_true, ih]
      | false =>
        simp only [insertLine_other hl, filter_cons, hpl, Bool.false_eq_true, if_false, ih]

theorem filter_insertClaim_pos {pair : String × String} (h : p pair.2 = true) (data : SessionData)
    (lines : List HeaderLine) : (insertClaim data lines pair).filter (fun l => p l.name) =
      insertClaim data (lines.filter fun l => p l.name) pair := by
  unfold insertClaim
  split
  · exact filter_insertLine_pos h _ lines
  · rfl

theorem filter_putClaims_pos {o : Oidc} (h : ∀ own ∈ o.ownHeaders, p own = true)
    (data : SessionData) (lines : List HeaderLine) :
    (o.putClaims data lines).filter (fun l => p l.name) =
      o.putClaims data (lines.filter fun l => p l.name) := by
  have hpairs : ∀ pair ∈ o.claimsToHeaders, p pair.2 = true :=
    fun pair hpair => h pair.2 (mem_map_of_mem hpair)
  unfold Oidc.putClaims
  generalize o.claimsToHeaders = pairs at hpairs
  induction pairs generalizing lines with
  | nil => rfl
  | cons pair _ ih =>
    rw [foldl_cons, foldl_cons,
      ih _ fun x hx => hpairs x (mem_cons_of_mem _ hx),
      filter_insertClaim_pos (hpairs pair mem_cons_self)]

end Lines

variable {lines : List HeaderLine} {l : HeaderLine} {f : Foreign}

theorem mem_insertLine {name : String} {value : List UInt8} (h : l ∈ insertLine name value lines) :
    l.name = name ∨ l ∈ lines := by
  induction lines with
  | nil => exact .inl (congrArg HeaderLine.name (mem_singleton.mp h))
  | cons _ _ ih =>
    unfold insertLine at h
    split at h
    · rcases mem_cons.mp h with rfl | h
      · exact .inl rfl
      · exact .inr (mem_cons_of_mem _ (mem_filter.mp h).1)
    · rcases mem_cons.mp h with rfl | h
      · exact .inr mem_cons_self
      · exact (ih h).imp_right (mem_cons_of_mem _)

theorem mem_insertClaim {data : SessionData} {pair : String × String}
    (h : l ∈ insertClaim data lines pair) : l.name = pair.2 ∨ l ∈ lines := by
  unfold insertClaim at h
  split at h
  · exact mem_insertLine h
  · exact .inr h

theorem name_mem_claimLines {o : Oidc} {data : SessionData} (h : l ∈ o.claimLines data) :
    l.name ∈ o.ownHeaders := by
  have hrun (pairs : List (String × String)) (lines : List HeaderLine)
      (hmem : l ∈ pairs.foldl (insertClaim data) lines) :
      l.name ∈ pairs.map (·.2) ∨ l ∈ lines := by
    induction pairs generalizing lines with
    | nil => exact .inr hmem
    | cons _ _ ih =>
      rw [map_cons]
      rcases ih _ hmem with hname | hlines
      · exact .inl (mem_cons_of_mem _ hname)
      · rcases mem_insertClaim hlines with hname | hlines
        · exact .inl (hname ▸ mem_cons_self)
        · exact .inr hlines
  exact (hrun _ _ h).resolve_right not_mem_nil

/-! ## Configured names -/

theorem foldsTo_of_mem {own : List String} {name : String} (h : name ∈ own) :
    foldsTo own name = true :=
  contains_iff_mem.mpr (mem_map_of_mem h)

theorem eq_of_foldName_eq {name plain : String} (hplain : '-' ∉ plain.toList)
    (h : foldName name = plain) : name = plain := by
  have hlist : plain.toList = name.toList.map fun c => if c = '_' then '-' else c := by
    rw [← h, foldName, String.toList_ofList]
  have hid : ∀ c ∈ name.toList, (if c = '_' then '-' else c) = c := by
    intro c hc
    split
    · next hbar =>
      refine absurd ?_ hplain
      rw [hlist, mem_map]
      exact ⟨c, hc, if_pos hbar⟩
    · rfl
  apply String.toList_injective
  rw [hlist, map_congr_left hid, map_id']

theorem foldsTo_connection {own : List String} (h : "connection" ∉ own) :
    foldsTo own "connection" = false := by
  rw [← Bool.not_eq_true]
  intro hfold
  obtain ⟨name, hname, heq⟩ := mem_map.mp (contains_iff_mem.mp hfold)
  have hfixed : foldName "connection" = "connection" := by decide +kernel
  have hhyphen : '-' ∉ "connection".toList := by decide
  have hsame := eq_of_foldName_eq hhyphen (heq.trans hfixed)
  exact h (hsame ▸ hname)

theorem parseClaimToHeader_ok {item : String} {pair : String × String}
    (h : parseClaimToHeader f item = .ok pair) : pair.2 ∉ reservedHeaders := by
  unfold parseClaimToHeader at h
  split at h
  · cases h
  · split at h
    · cases h
    · split at h
      · cases h
      · next hreserved =>
        obtain rfl := Except.ok.inj h
        simpa using hreserved

theorem forall_of_mapM_ok {α β ε : Type} {g : α → Except ε β} {P : β → Prop}
    (hg : ∀ a b, g a = .ok b → P b) {as : List α} {bs : List β} (h : as.mapM g = .ok bs) :
    ∀ b ∈ bs, P b := by
  induction as generalizing bs with
  | nil =>
    obtain rfl := Except.ok.inj h
    exact fun b hb => absurd hb not_mem_nil
  | cons a as ih =>
    rw [mapM_cons] at h
    cases ha : g a with
    | error _ => simp [ha, bind, Except.bind] at h
    | ok _ =>
      cases has : as.mapM g with
      | error _ => simp [ha, has, bind, Except.bind] at h
      | ok _ =>
        rw [ha, has] at h
        obtain rfl := Except.ok.inj h
        intro x hx
        rcases mem_cons.mp hx with rfl | hx
        · exact hg a _ ha
        · exact ih has x hx

theorem BuiltFrom.connection_not_own {conf : OidcConf} {o : Oidc} (h : BuiltFrom f conf o) :
    "connection" ∉ o.ownHeaders := by
  intro hmem
  obtain ⟨pair, hpair, hname⟩ := mem_map.mp hmem
  refine forall_of_mapM_ok (P := fun pair => pair.2 ∉ reservedHeaders)
    (fun _ _ => parseClaimToHeader_ok) h.claimsToHeaders pair hpair ?_
  rw [hname]
  decide

/-! ## Text in a header line -/

theorem visible_of_toStr {text : String} (h : l.toStr = some text) :
    ∀ ch ∈ text.toList, ch.toNat < 128 ∧ isVisibleAscii (UInt8.ofNat ch.toNat) = true := by
  unfold HeaderLine.toStr at h
  split at h
  · next hall =>
    obtain rfl := Option.some.inj h
    intro ch hch
    rw [latin1, String.toList_ofList, mem_map] at hch
    obtain ⟨b, hb, rfl⟩ := hch
    have hvis := all_eq_true.mp hall b hb
    have hlt : b.toNat < 128 := by
      simp only [isVisibleAscii, Bool.or_eq_true, Bool.and_eq_true, decide_eq_true_eq, beq_iff_eq,
        UInt8.lt_iff_toNat_lt] at hvis
      rcases hvis with hvis | rfl
      · exact hvis.2.trans (by decide)
      · decide
    have hnat : (Char.ofNat b.toNat).toNat = b.toNat :=
      toNat_ofNat_of_valid (.inl (hlt.trans (by decide)))
    rw [hnat, UInt8.ofNat_toNat]
    exact ⟨hlt, hvis⟩
  · cases h

theorem toStr_utf8Encode {text : String} (name : String)
    (h : ∀ ch ∈ text.toList, ch.toNat < 128 ∧ isVisibleAscii (UInt8.ofNat ch.toNat) = true) :
    (HeaderLine.mk name (utf8Encode text)).toStr = some text := by
  have hall : (utf8Encode text).all isVisibleAscii = true := by
    rw [all_eq_true]
    intro b hb
    obtain ⟨ch, hch, hb⟩ := mem_flatMap.mp hb
    rw [utf8EncodeChar_ascii (h ch hch).1, mem_singleton] at hb
    exact hb ▸ (h ch hch).2
  unfold HeaderLine.toStr
  rw [if_pos hall, latin1, map_utf8Encode_ascii fun ch hch => (h ch hch).1, String.ofList_toList]

/-! ## The gate's edits -/

variable {o : Oidc} {data : SessionData} {r : RequestHeader}

theorem identityLines_setClaims :
    o.identityLines (o.putClaims data (stripClaimHeaders o.ownHeaders r).headers) =
      o.claimLines data := by
  unfold Oidc.identityLines Oidc.claimLines
  rw [filter_putClaims_pos fun _ => foldsTo_of_mem]
  congr 1
  unfold stripClaimHeaders
  split
  · next hnone =>
    -- without configured headers no line passes for one
    rw [isEmpty_iff.mp hnone]
    exact filter_eq_nil_iff.mpr fun l _ => by simp [foldsTo]
  · rw [filter_filter]
    exact filter_eq_nil_iff.mpr fun l _ => by simp

section Protect

variable {names : List String}

theorem identityLines_protect (hown : "connection" ∉ o.ownHeaders) :
    o.identityLines (protectFromConnectionHeader names r).headers = o.identityLines r.headers := by
  have hfold := foldsTo_connection hown
  unfold protectFromConnectionHeader Oidc.identityLines
  split
  · rfl
  · split
    · rfl
    · dsimp only
      split
      · exact filter_filter_ne hfold r.headers
      · unfold RequestHeader.insertHeader RequestHeader.removeHeader
        dsimp only
        rw [filter_insertLine_neg hfold, filter_filter_ne hfold]

theorem mem_connectionTokens {lines : List HeaderLine} {token : String}
    (h : token ∈ connectionTokens lines) : IsEntry token ∧
      ∀ ch ∈ token.toList, ch.toNat < 128 ∧ isVisibleAscii (UInt8.ofNat ch.toNat) = true := by
  obtain ⟨text, htext, hentry⟩ := mem_flatMap.mp h
  obtain ⟨l, -, hl⟩ := mem_filterMap.mp htext
  obtain ⟨hentry, hsub⟩ := mem_listedEntries hentry
  exact ⟨hentry, fun ch hch => visible_of_toStr hl ch (hsub ch hch)⟩

/-- A `Connection` line written of entries is read back as these entries. -/
theorem connectionTokens_written {kept : List String} (hlines : connectionLines lines =
      [⟨"connection", utf8Encode (", ".intercalate kept)⟩])
    (hkept : ∀ token ∈ kept, token ∈ connectionTokens r.headers) :
    connectionTokens lines = kept := by
  have htext : (HeaderLine.mk "connection" (utf8Encode (", ".intercalate kept))).toStr =
      some (", ".intercalate kept) := by
    apply toStr_utf8Encode
    intro ch hch
    rcases mem_intercalate hch with hsep | ⟨token, htoken, hch⟩
    · have hchars : ch = ',' ∨ ch = ' ' := by simpa using hsep
      rcases hchars with rfl | rfl <;> decide
    · exact (mem_connectionTokens (hkept token htoken)).2 ch hch
  rw [connectionTokens, hlines, filterMap_cons_some htext, filterMap_nil, flatMap_singleton]
  exact listedEntries_intercalate fun token htoken => (mem_connectionTokens (hkept token htoken)).1

theorem connectionLines_removeHeader :
    connectionLines (r.removeHeader "connection").headers = [] := by
  unfold connectionLines RequestHeader.removeHeader
  rw [filter_filter]
  exact filter_eq_nil_iff.mpr fun l _ => by simp

theorem connectionLines_insertHeader (text : String) :
    connectionLines ((r.removeHeader "connection").insertHeader "connection" text).headers =
      [⟨"connection", utf8Encode text⟩] := by
  have hgone := connectionLines_removeHeader (r := r)
  unfold connectionLines at hgone ⊢
  unfold RequestHeader.insertHeader
  dsimp only
  rw [filter_insertLine_pos (p := fun name => name = "connection") (by simp), hgone]
  rfl

/-- The names that are protected are nominated by no line afterwards. -/
theorem protect_nominates_none :
    (connectionTokens (protectFromConnectionHeader names r).headers).any (nominates names) =
      false := by
  unfold protectFromConnectionHeader
  split
  · next hnone =>
    rw [any_eq_false]
    intro token htoken
    rcases Bool.or_eq_true_iff.mp hnone with hempty | hline
    · simp [nominates, isEmpty_iff.mp hempty]
    · obtain ⟨text, htext, -⟩ := mem_flatMap.mp htoken
      obtain ⟨l, hl, -⟩ := mem_filterMap.mp htext
      obtain ⟨hmem, hl⟩ := mem_filter.mp hl
      have hhas : r.hasHeader "connection" = true := any_eq_true.mpr ⟨l, hmem, hl⟩
      simp [hhas] at hline
  · split
    · next hno => simpa using hno
    · dsimp only
      split
      · rw [connectionTokens, connectionLines_removeHeader]
        rfl
      · rw [connectionTokens_written (connectionLines_insertHeader _)
          fun token htoken => (mem_filter.mp htoken).1, any_eq_false]
        intro token htoken
        simpa using (mem_filter.mp htoken).2

end Protect

/-! ## What is forwarded -/

theorem identityLines_setClaimHeaders (hown : "connection" ∉ o.ownHeaders) (data : SessionData)
    (r : RequestHeader) :
    o.identityLines (o.setClaimHeaders data r).headers = o.claimLines data := by
  unfold Oidc.setClaimHeaders
  rw [identityLines_protect hown, identityLines_setClaims]

/-- Of lines that are not nominated none is left out. -/
theorem identityLines_sentUpstream {leavesOut : RequestHeader → HeaderLine → Bool}
    (hnominated : LeavesOutNominated leavesOut)
    (hlines : ∀ l ∈ o.identityLines r.headers, l.name ∈ o.ownHeaders)
    (hfree : (connectionTokens r.headers).any (nominates o.ownHeaders) = false) :
    o.identityLines (sentUpstream leavesOut r) = o.identityLines r.headers := by
  have hcomm : o.identityLines (sentUpstream leavesOut r) =
      (o.identityLines r.headers).filter fun l => !leavesOut r l := by
    unfold Oidc.identityLines sentUpstream
    rw [filter_filter, filter_filter]
    exact filter_congr fun l _ => Bool.and_comm _ _
  rw [hcomm, filter_eq_self]
  intro l hl
  rw [Bool.not_eq_true', ← Bool.not_eq_true]
  intro hout
  obtain ⟨token, htoken, heq⟩ := hnominated r l hout
  exact any_eq_false.mp hfree token htoken (any_eq_true.mpr ⟨l.name, hlines l hl, heq⟩)

theorem headerAfter_eq {q : Visit} (hsession : o.session f q.header q.now = some data)
    (hgo : o.handleRequest f q = .continue_) :
    o.headerAfter f q = o.setClaimHeaders data q.header := by
  unfold Oidc.handleRequest at hgo
  unfold Oidc.headerAfter
  dsimp only at hgo ⊢
  rw [hsession] at hgo ⊢
  split at hgo
  · cases hgo
  · split at hgo
    · cases hgo
    · split at hgo
      · cases hgo
      · dsimp only at hgo ⊢
        split at hgo
        · next hstep hcallback hlogout hadmits =>
          rw [if_neg hstep, if_neg hcallback, if_neg hlogout, if_pos hadmits]
        · cases hgo

/-- Of a request that the gate lets through, the identity headers handed over are what the session
says, whatever the client sent, and no `Connection` line that is forwarded takes one of them away. -/
theorem identity_is_the_sessions (f : Foreign) (conf : OidcConf) (o : Oidc)
    (hplugin : Oidc.tryFrom f conf = .ok o) (leavesOut : RequestHeader → HeaderLine → Bool)
    (hnominated : LeavesOutNominated leavesOut) (q : Visit) (data : SessionData)
    (hsession : o.session f q.header q.now = some data) (hgo : o.handleRequest f q = .continue_) :
    o.identityLines (o.headerAfter f q).headers = o.claimLines data ∧
      o.identityLines (sentUpstream leavesOut (o.headerAfter f q)) = o.claimLines data := by
  have hown := (oidc_tryFrom_ok hplugin).connection_not_own
  have hlines := identityLines_setClaimHeaders hown data q.header
  have hnames : ∀ l ∈ o.identityLines (o.setClaimHeaders data q.header).headers,
      l.name ∈ o.ownHeaders := by
    rw [hlines]
    exact fun l => name_mem_claimLines
  rw [headerAfter_eq hsession hgo]
  exact ⟨hlines,
    (identityLines_sentUpstream hnominated hnames protect_nominates_none).trans hlines⟩

/-! ## A site that tells its upstream the user -/

/-- A proxy that leaves out every header that is nominated. -/
def leavesOutAll (r : RequestHeader) (l : HeaderLine) : Bool :=
  (connectionTokens r.headers).any (eqIgnoreAsciiCase l.name)

theorem leavesOutAll_nominated : LeavesOutNominated leavesOutAll :=
  fun _ _ => any_eq_true.mp

def userConf : OidcConf :=
  { bothSite.oidcConf with authMode := "", claimsToHeaders := ["sub:x-user-id"] }

def userOidc : Oidc :=
  ⟨.request, "/cb", none, "sid", [7], [("sub", "x-user-id")], .allowAll, .oidc⟩

def userSession : SessionData := ⟨5000, [("sub", .string "u1")]⟩

def userForeign : Foreign :=
  { plainForeign with sessionFromJson := fun bs => if bs = [2] then some userSession else none }

/-- A request of the user that claims to be from another, in two lines, and nominates the user's
header in a `Connection` line that is text beside one that is not. -/
def forgedVisit : Visit :=
  { pageVisit oidcCookie with
    header := ⟨"GET", some "shop.example.com", "/", none,
      [.ofText "x_user_id" "root", .ofText "x-user-id" "root", .ofText "cookie" oidcCookie,
        ⟨"connection", utf8Encode "X-User-Id, " ++ [255]⟩,
        .ofText "connection" "X-User-Id, close"]⟩ }

/-- The user's header arrives all the same, and nobody else's. -/
theorem user_arrives :
    userOidc.claimLines userSession = [.ofText "x-user-id" "u1"] ∧
      (userOidc.identityLines (userOidc.headerAfter userForeign forgedVisit).headers =
          userOidc.claimLines userSession ∧
        userOidc.identityLines (sentUpstream leavesOutAll
          (userOidc.headerAfter userForeign forgedVisit)) = userOidc.claimLines userSession) :=
  ⟨by decide +kernel, identity_is_the_sessions userForeign userConf userOidc (by rfl) leavesOutAll
    leavesOutAll_nominated forgedVisit userSession rfl (by decide +kernel)⟩

end PingWaf.Auth
