import Lnvps.EncryptedString
import Lnvps.Lib.Table

/-! # The migration to encrypted columns -/

namespace Lnvps.Migrations

open EncryptionContext EncryptedString Table Outcome Option

structure Row where
 id : Nat
 text : Option (List Char)

variable (crypto : Crypto) (ctx : EncryptionContext)

abbrev Answer := Option (Vector UInt8 12)

variable (rows : List Row)

def fetchRawStrings : List (Nat × List Char) :=
 rows.filterMap fun r => (r.text.filter (· ≠ [])).map fun text => (r.id, text)

def encryptRows : List (Nat × List Char) → List Answer → List Row → List Row × Option (List Answer)
 | [], answers, rows => (rows, some answers)
 | (id, text) :: fetched, answers, rows =>
  if isEncrypted text then encryptRows fetched answers rows
  else
   match answers with
   | some nonce :: answers => encryptRows fetched answers
     (updateWhere (·.id = id) (fun r => { r with text := some (ctx.encrypt crypto nonce text) }) rows)
   | _ => (rows, none)

def encryptColumns : List (List Row) → List Answer → List (List Row) × Option (List Answer)
 | [], answers => ([], some answers)
 | rows :: db, some _ :: answers =>
  let (rows', left) := encryptRows crypto ctx (fetchRawStrings rows) answers rows
  match left with
  | some answers =>
   let (db', left) := encryptColumns db answers
   (rows' :: db', left)
  | none => (rows' :: db, none)
 | db, _ => (db, none)

def migrate (configured : Bool) (answers : List Answer) (db : List (List Row)) :
  List (List Row) × Option (List Answer) :=
 if configured then encryptColumns crypto ctx db answers else (db, some answers)

def readAs : List (Nat × Option (Except String (List Char))) :=
 rows.map fun r => (r.id, r.text.map (decode crypto (some ctx)))

def Migrated : Prop := ∀ r ∈ rows, ∀ text ∈ r.text, text = [] ∨ isEncrypted text = true

variable {crypto ctx} {rows : List Row} {fetched : List (Nat × List Char)} {answers : List Answer}
 {db : List (List Row)}

theorem mem_fetchRawStrings {x : Nat × List Char} :
  x ∈ fetchRawStrings rows ↔ ∃ r ∈ rows, r.id = x.1 ∧ r.text = some x.2 ∧ x.2 ≠ [] := by
 simp only [fetchRawStrings, List.mem_filterMap, map_eq_some_iff, filter_eq_some_iff, decide_eq_true_eq]
 constructor
 · rintro ⟨r, hr, text, ⟨htext, hne⟩, rfl⟩
   exact ⟨r, hr, rfl, htext, hne⟩
 · rintro ⟨r, hr, hid, htext, hne⟩
   exact ⟨r, hr, x.2, ⟨htext, hne⟩, by rw [hid]⟩

theorem decode_encrypt (nonce : Vector UInt8 12) (text : List Char) :
  decode crypto (some ctx) (ctx.encrypt crypto nonce text) = .ok text := by
 rw [decode, if_pos (isEncrypted_encrypt nonce)]
 exact mapError_eq_ok.mpr (decrypt_encrypt nonce)

theorem readAs_encryptRows
  (h : ∀ x ∈ fetched, isEncrypted x.2 = false →
   ∀ y ∈ readAs crypto ctx rows, y.1 = x.1 → y.2 = some (.ok x.2)) :
  readAs crypto ctx (encryptRows crypto ctx fetched answers rows).1 = readAs crypto ctx rows := by
 fun_induction encryptRows crypto ctx fetched answers rows with
 | case1 => rfl
 | case2 id text fetched answers rows henc ih => exact ih (List.forall_mem_cons.mp h).2
 | case3 id text fetched rows henc nonce answers ih =>
  rw [List.forall_mem_cons] at h
  have hsame : readAs crypto ctx (updateWhere (·.id = id)
    (fun r => { r with text := some (ctx.encrypt crypto nonce text) }) rows) = readAs crypto ctx rows := by
   refine map_updateWhere _ fun r hr hid => ?_
   have hread := h.1 (by simpa using henc) _ (List.mem_map_of_mem hr) (of_decide_eq_true hid)
   simpa [decode_encrypt] using hread.symm
  rw [ih (by rw [hsame]; exact h.2), hsame]
 | case4 => rfl

theorem migrated_encryptRows
  (h : ∀ r ∈ rows, ∀ text ∈ r.text, (r.id, text) ∉ fetched → text = [] ∨ isEncrypted text = true)
  (hdone : (encryptRows crypto ctx fetched answers rows).2.isSome) :
  Migrated (encryptRows crypto ctx fetched answers rows).1 := by
 fun_induction encryptRows crypto ctx fetched answers rows with
 | case1 => simpa [Migrated] using h
 | case2 id text fetched answers rows henc ih =>
  refine ih (fun r hr text' htext hnew => ?_) hdone
  by_cases hrow : (r.id, text') = (id, text)
  · exact .inr ((Prod.mk.inj hrow).2 ▸ henc)
  · exact h r hr text' htext (by simp [hrow, hnew])
 | case3 id text fetched rows henc nonce answers ih =>
  refine ih (fun r' hr' text' htext hnew => ?_) hdone
  obtain ⟨r, hr, rfl⟩ := mem_updateWhere.mp hr'
  split at htext
  · cases htext
    exact .inr (isEncrypted_encrypt nonce)
  rename_i hid
  rw [if_neg hid] at hnew
  refine h r hr text' htext ?_
  simp_all
 | case4 => cases hdone

theorem encryptRows_of_encrypted (h : ∀ x ∈ fetched, isEncrypted x.2 = true) :
  (encryptRows crypto ctx fetched answers rows).1 = rows := by
 fun_induction encryptRows crypto ctx fetched answers rows with
 | case1 => rfl
 | case2 id text fetched answers rows henc ih => exact ih (List.forall_mem_cons.mp h).2
 | case3 id text fetched rows henc nonce answers ih => exact absurd (h _ List.mem_cons_self) henc
 | case4 => rfl

theorem readAs_encryptColumns (hkeys : ∀ rows ∈ db, Keyed (·.id) rows) :
  (encryptColumns crypto ctx db answers).1.map (readAs crypto ctx) = db.map (readAs crypto ctx) := by
 have hfetched (answers : List Answer) {rows : List Row} (hkeys : Keyed (·.id) rows) :
   readAs crypto ctx (encryptRows crypto ctx (fetchRawStrings rows) answers rows).1 = readAs crypto ctx rows := by
  refine readAs_encryptRows fun x hx henc y hy hid => ?_
  obtain ⟨r, hr, hid', htext, -⟩ := mem_fetchRawStrings.mp hx
  obtain ⟨s, hs, rfl⟩ := List.mem_map.mp hy
  rw [hkeys.eq_of_key hs hr (hid.trans hid'.symm), htext, map_some, decode_plain henc]
 fun_induction encryptColumns crypto ctx db answers with
 | case1 => rfl
 | case2 rows db nonce answers rows' answers' db' left hdb hrows ih =>
  rw [List.forall_mem_cons] at hkeys
  have hsame := hfetched answers hkeys.1
  simp_all
 | case3 rows db nonce answers rows' hrows =>
  rw [List.forall_mem_cons] at hkeys
  have hsame := hfetched answers hkeys.1
  simp_all
 | case4 => rfl

theorem migrated_encryptColumns (hdone : (encryptColumns crypto ctx db answers).2.isSome) :
  ∀ rows ∈ (encryptColumns crypto ctx db answers).1, Migrated rows := by
 fun_induction encryptColumns crypto ctx db answers with
 | case1 => simp
 | case2 rows db nonce answers rows' answers' db' left hdb hrows ih =>
  rw [hdb] at ih
  refine List.forall_mem_cons.mpr ⟨?_, ih hdone⟩
  rw [← show _ = rows' from congrArg Prod.fst hrows]
  refine migrated_encryptRows (fun r hr text htext hnew => ?_) (by rw [hrows]; rfl)
  by_contra hne
  exact hnew (mem_fetchRawStrings.mpr ⟨r, hr, rfl, htext, fun hnil => hne (.inl hnil)⟩)
 | case3 | case4 => cases hdone

theorem encryptColumns_of_migrated (h : ∀ rows ∈ db, Migrated rows) :
  (encryptColumns crypto ctx db answers).1 = db := by
 have hfetched (answers : List Answer) {rows : List Row} (h : Migrated rows) :
   (encryptRows crypto ctx (fetchRawStrings rows) answers rows).1 = rows := by
  refine encryptRows_of_encrypted fun x hx => ?_
  obtain ⟨r, hr, -, htext, hne⟩ := mem_fetchRawStrings.mp hx
  exact (h r hr x.2 htext).resolve_left hne
 fun_induction encryptColumns crypto ctx db answers with
 | case1 => rfl
 | case2 rows db nonce answers rows' answers' db' left hdb hrows ih =>
  rw [List.forall_mem_cons] at h
  have hsame := hfetched answers h.1
  simp_all
 | case3 rows db nonce answers rows' hrows =>
  rw [List.forall_mem_cons] at h
  have hsame := hfetched answers h.1
  simp_all
 | case4 => rfl

theorem keyed_iff_readAs :
  (∀ rows ∈ db, Keyed (·.id) rows) ↔ ∀ xs ∈ db.map (readAs crypto ctx), (xs.map Prod.fst).Nodup := by
 simp [readAs, Keyed, Function.comp_def]

theorem migration_keeps_texts (crypto : Crypto) (ctx : EncryptionContext)
  (db : { db : List (List Row) // ∀ rows ∈ db, Keyed (·.id) rows }) (starts : List (Bool × List Answer)) :
  let db' := starts.foldl (fun db start => (migrate crypto ctx start.1 start.2 db).1) db.1
  db'.map (readAs crypto ctx) = db.1.map (readAs crypto ctx) ∧
   ∀ answers, (migrate crypto ctx true answers db').2.isSome →
    let final := (migrate crypto ctx true answers db').1
    (∀ rows ∈ final, ∀ r ∈ rows, ∀ text ∈ r.text, (text = [] ∨ isEncrypted text = true) ∧
      ((decode crypto none text).isOk ↔ text = [])) ∧
     ∀ configured later, (migrate crypto ctx configured later final).1 = final := by
 refine ⟨?_, fun answers hdone => ?_⟩
 · obtain ⟨db, hkeys⟩ := db
   induction starts generalizing db with
   | nil => rfl
   | cons start starts ih =>
    have hstep : (migrate crypto ctx start.1 start.2 db).1.map (readAs crypto ctx) = db.map (readAs crypto ctx) := by
     unfold migrate
     split_ifs
     · exact readAs_encryptColumns hkeys
     · rfl
    exact (ih _ (keyed_iff_readAs.mpr (hstep ▸ keyed_iff_readAs.mp hkeys))).trans hstep
 · have hall := migrated_encryptColumns hdone
   refine ⟨fun rows hrows r hr text htext => ⟨hall rows hrows r hr text htext, ?_⟩, fun configured later => ?_⟩
   · rcases hall rows hrows r hr text htext with rfl | henc
     · exact iff_of_true rfl rfl
     have hread : decode crypto none text =
       .error "Encryption context not initialized: Encryption context not initialized" := by
      rw [decode, if_pos henc]
      rfl
     refine iff_of_false (by simp [hread, Except.isOk, Except.toBool]) ?_
     rintro rfl
     exact absurd henc (by decide)
   · cases configured with
     | true => exact encryptColumns_of_migrated hall
     | false => rfl

end Lnvps.Migrations
