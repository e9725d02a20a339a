import Mathlib.Data.List.Basic
import FeedGraph.Feed.Resolvers
import FeedGraph.Text.Split

/-!
# Targets: a film id stays the value of its parameter

The id of a film comes from a client and becomes part of an address. Whatever it is, it is the value
of one parameter there and nothing else: reading the query gives the pairs that the address of the
catalog has of its own, and behind them the id under its name (`Form.pairs_append`). This is because
a written name or value has neither of the marks at which queries are cut
(`Form.ne_mark_of_mem_encode`), and because reading it gives back what was written.

The main statement is `Catalog.film_target`. It also says what the path is: that of the catalog
without one empty segment at its end, and the name of the resource.
-/

namespace FeedGraph

/-! ## Cutting at marks -/

namespace Text

variable {separates : Char → Bool} {mark : Char}

/-- A mark parts what is in front of it from what is behind it: no piece goes across it. -/
theorem pieces_append (h : separates mark = true) (front back : List Char) :
    pieces separates (front ++ mark :: back) = pieces separates front ++ pieces separates back := by
  have hne : ∀ chars, ∃ first others, pieces separates chars = first :: others := fun chars =>
    List.exists_cons_of_length_eq_add_one (length_pieces separates chars)
  induction front with
  | nil =>
    obtain ⟨first, others, hback⟩ := hne back
    simp only [List.nil_append, pieces, hback, h, if_true]
    rfl
  | cons c rest ih =>
    obtain ⟨first, others, hrest⟩ := hne rest
    rw [List.cons_append, pieces, ih, pieces, hrest, List.cons_append]
    by_cases hc : separates c = true <;> simp [hc]

/-- Without a mark there is one piece. -/
theorem pieces_of_forall {chars : List Char} (h : ∀ c ∈ chars, separates c = false) :
    pieces separates chars = [chars] := by
  induction chars with
  | nil => rfl
  | cons c rest ih =>
    obtain ⟨hc, hrest⟩ := List.forall_mem_cons.mp h
    rw [pieces, ih hrest]
    simp [hc]

/-- What has no mark in front of one is cut there, at the first mark. -/
theorem cut_append {before : List Char} (h : mark ∉ before) (behind : List Char) :
    cut mark (before ++ mark :: behind) = (before, some behind) := by
  induction before with
  | nil => simp [cut]
  | cons c rest ih =>
    rw [List.mem_cons, not_or] at h
    rw [List.cons_append, cut, if_neg (Ne.symm h.1), ih h.2]

end Text

/-! ## Reading queries -/

namespace Form

/-- The pairs of a query: the pieces between ampersands, empty ones apart, each of them a name and,
behind an equals sign, a value. Names and values are none if they cannot be read. This is how a
server reads it; `Form` only writes. -/
def pairs (query : String) : List (Option String × Option String) :=
  ((Text.pieces (· == '&') query.toList).filter (!·.isEmpty)).map fun piece =>
    let (name, value?) := Text.cut '=' piece
    (decode? (String.ofList name), decode? (String.ofList (value?.getD [])))

/-- What is in front of a pair that is added: nothing, or the query that is there and an
ampersand. -/
def front : Option String → String
  | none => ""
  | some query => if query.isEmpty then "" else query ++ "&"

/-- A pair is added behind what is there. -/
theorem append_eq (query? : Option String) (name value : String) :
    append query? name value = front query? ++ pair name value := by
  cases query? with
  | none => simp [append, front]
  | some query =>
    rw [append, front]
    split <;> simp

theorem isPlain_hexDigit : ∀ n < 16, isPlain (Percent.hexDigit n) = true := by decide

/-- What is written for a name or a value are characters that stand for themselves, plus signs and
percent signs. All others are written with percent signs, byte by byte. -/
theorem plain_of_mem_encode {text : String} {c : Char} (h : c ∈ (encode text).toList) :
    isPlain c = true ∨ c = '+' ∨ c = '%' := by
  rw [encode, String.toList_ofList] at h
  obtain ⟨original, -, h⟩ := List.mem_flatMap.mp h
  rw [encodedChar] at h
  split at h
  · exact .inr (.inl (List.mem_singleton.mp h))
  · split at h
    · next hplain =>
      obtain rfl := List.mem_singleton.mp h
      exact .inl hplain
    · -- a percent sign and two digits for each byte
      obtain ⟨b, -, h⟩ := List.mem_flatMap.mp h
      have hb := b.toNat_lt
      simp only [Percent.encodedByte, List.mem_cons, List.not_mem_nil, or_false] at h
      rcases h with rfl | rfl | rfl
      · exact .inr (.inr rfl)
      · exact .inl (isPlain_hexDigit _ (by omega))
      · exact .inl (isPlain_hexDigit _ (by omega))

/-- So there is no mark among them, and a reader cuts a query at the marks between pairs only. -/
theorem ne_mark_of_mem_encode {text : String} {c : Char} (h : c ∈ (encode text).toList) :
    c ≠ '&' ∧ c ≠ '=' := by
  rcases plain_of_mem_encode h with h | rfl | rfl
  · constructor <;> (rintro rfl; revert h; decide)
  · decide
  · decide

/-- What is written tells texts apart, because reading it gives back the text (`decode?_encode`). -/
theorem encode_injective : Function.Injective encode := by
  intro text other h
  have hread := decode?_encode text
  rw [h, decode?_encode] at hread
  exact (Option.some.inj hread).symm

theorem toList_pair (name value : String) :
    (pair name value).toList = (encode name).toList ++ '=' :: (encode value).toList := by
  simp [pair]

/-- A pair is read as its name and value. -/
theorem pairs_pair (name value : String) : pairs (pair name value) = [(some name, some value)] := by
  have hname : '=' ∉ (encode name).toList := fun h => (ne_mark_of_mem_encode h).2 rfl
  have hpieces : Text.pieces (· == '&') (pair name value).toList = [(pair name value).toList] := by
    refine Text.pieces_of_forall fun c hc => ?_
    rw [toList_pair, List.mem_append, List.mem_cons] at hc
    rw [beq_eq_false_iff_ne]
    rcases hc with hc | rfl | hc
    · exact (ne_mark_of_mem_encode hc).1
    · decide
    · exact (ne_mark_of_mem_encode hc).1
  rw [pairs, hpieces, toList_pair]
  simp [Text.cut_append hname, decode?_encode]

/-- Reading a query to which a pair was added gives the pairs that were there, and this one. An
ampersand is only written where there is something in front of it; an empty query and none are the
same here. -/
theorem pairs_append (query? : Option String) (name value : String) :
    pairs (append query? name value) =
      pairs (query?.getD "") ++ [(some name, some value)] := by
  have hnothing : pairs "" = [] := by rfl
  cases query? with
  | none => rw [append, pairs_pair, Option.getD_none, hnothing, List.nil_append]
  | some query =>
    rw [append, Option.getD_some]
    split
    · next hempty =>
      obtain rfl := String.isEmpty_iff.mp hempty
      rw [pairs_pair, hnothing, List.nil_append]
    · have hchars : (query ++ "&" ++ pair name value).toList =
          query.toList ++ '&' :: (pair name value).toList := by simp
      rw [← pairs_pair, pairs, hchars, Text.pieces_append (by decide), List.filter_append,
        List.map_append]
      rfl

end Form

/-! ## Addresses below another one -/

namespace Url

/-- The segments that stay in front of a resource: all but an empty one at the end. The bare root,
which is a single empty segment, has none. -/
def stem (names : List String) : List String :=
  let left := if names.getLast? = some "" then names.dropLast else names
  if left = [""] then [] else left

theorem stem_of_getLast?_ne {names : List String} (h : names.getLast? ≠ some "") :
    stem names = if names = [""] then [] else names := by
  simp only [stem, h, if_false]

theorem stem_concat (names : List String) :
    stem (names ++ [""]) = if names = [""] then [] else names := by
  simp only [stem, List.getLast?_concat, if_true, List.dropLast_concat]

/-- A resource is added to them; this is what `Url.resource?` does to a path. -/
theorem pushSegment_dropEmptyLast (names : List String) (name : String) :
    pushSegment (dropEmptyLast names) name = stem names ++ [name] := by
  have hpush : ∀ left, pushSegment left name = (if left = [""] then [] else left) ++ [name] := by
    intro left
    rw [pushSegment]
    split <;> rfl
  by_cases hlast : names.getLast? = some ""
  · obtain ⟨front, rfl⟩ := List.getLast?_eq_some_iff.mp hlast
    cases front with
    | nil => rfl
    | cons first rest =>
      have hdrop : dropEmptyLast (first :: rest ++ [""]) = first :: rest := by
        rw [dropEmptyLast, if_pos ⟨by simp, hlast⟩, List.dropLast_concat]
      rw [hdrop, hpush, stem_concat]
  · have hdrop : dropEmptyLast names = names := if_neg fun h => hlast h.2
    rw [hdrop, hpush, stem_of_getLast?_ne hlast]

/-- A slash at the end does not matter if there is none in front of it. -/
theorem stem_slashed {names : List String} (h : names.getLast? ≠ some "") :
    stem (names ++ [""]) = stem names := by
  rw [stem_concat, stem_of_getLast?_ne h]

theorem Path.text_concat (names : List String) (name : String) :
    (Path.segments (names ++ [name])).text = (Path.segments names).text ++ "/" ++ name := by
  simp [Path.text, String.append_assoc]

end Url

namespace Catalog

variable {catalog : Catalog} {names : List String}

/-- The address of the film with an id, below an address with a path. Only the query depends on the
id. -/
def filmUrl (catalog : Catalog) (names : List String) (id : String) : Url :=
  { catalog.base with
    path := .segments (Url.stem names ++ ["movie_details.json"])
    query? := some (Form.append catalog.base.query? "movie_id" id) }

theorem url_details (hpath : catalog.base.path = .segments names) (id : String) :
    catalog.url (.details id) = .ok (catalog.filmUrl names id) := by
  rw [url, Url.resource?, hpath]
  simp only [Url.pushSegment_dropEmptyLast]
  rfl

theorem target_filmUrl (id : String) :
    (catalog.filmUrl names id).target = (Url.Path.segments (Url.stem names)).text ++
      "/movie_details.json?" ++ Form.front catalog.base.query? ++ "movie_id=" ++
        Form.encode id := by
  have hquery : Form.append catalog.base.query? "movie_id" id =
      Form.front catalog.base.query? ++ "movie_id=" ++ Form.encode id := by
    have hname : Form.encode "movie_id" ++ "=" = "movie_id=" := by rfl
    rw [Form.append_eq, Form.pair, hname, String.append_assoc]
  have hmark : "/movie_details.json?" = "/" ++ "movie_details.json" ++ "?" := by rfl
  simp only [Url.target, filmUrl, Url.Path.text_concat, Url.optionalText, hquery, hmark,
    String.append_assoc]

/-- The resolver for a film asks for its address, once, and has what comes of it. What comes of it
may depend on what was sent before. -/
theorem run_film (hpath : catalog.base.path = .segments names) (parent : Json)
    {arguments : Members Value} {id : String} (hid : Feed.textArgument arguments "id" = .ok id)
    (state : FeedState) :
    let (resolution, state) := Feed.film catalog parent arguments state
    resolution.fiber.run state = (Feed.filmOutcome Json.object
      ((catalog.exchange state.sent (catalog.filmUrl names id) catalog.timeout?).film
        catalog.complaint), state.send (catalog.filmUrl names id)) := by
  simp only [Feed.film, hid, Resolution.fiber, Feed.asking, url_details hpath]
  rfl

/-- Below an address with a path, films are asked for at addresses in which an id is the value of
the last parameter, whatever it is: the path does not depend on it, and reading the query gives the
pairs of the other address and this one more. Different ids have different targets, and whether the
other address ends with a slash does not matter. -/
theorem film_target (hpath : catalog.base.path = .segments names) :
    ∃ url : String → Url,
      (∀ id, catalog.url (.details id) = .ok (url id)) ∧
      (∀ parent arguments id (state : FeedState), Feed.textArgument arguments "id" = .ok id →
        let (resolution, state) := Feed.film catalog parent arguments state
        resolution.fiber.run state = (Feed.filmOutcome Json.object
          ((catalog.exchange state.sent (url id) catalog.timeout?).film catalog.complaint),
            state.send (url id))) ∧
      (∀ id, (url id).target = (Url.Path.segments (Url.stem names)).text ++
        "/movie_details.json?" ++ Form.front catalog.base.query? ++ "movie_id=" ++
          Form.encode id) ∧
      (∀ id, (url id).path = .segments (Url.stem names ++ ["movie_details.json"])) ∧
      (∀ id, Form.pairs ((url id).query?.getD "") =
        Form.pairs (catalog.base.query?.getD "") ++ [(some "movie_id", some id)]) ∧
      (∀ id, ∀ c ∈ (Form.encode id).toList, Form.isPlain c = true ∨ c = '+' ∨ c = '%') ∧
      (∀ id id', (url id).target = (url id').target → id = id') ∧
      ∀ slashed : Catalog, slashed.base = { catalog.base with path := .segments (names ++ [""]) } →
        names.getLast? ≠ some "" → ∀ id, slashed.url (.details id) = .ok (url id) := by
  refine ⟨catalog.filmUrl names, url_details hpath, fun parent arguments id state hid =>
    run_film hpath parent hid state, target_filmUrl, fun _ => rfl,
    fun id => Form.pairs_append _ _ _, fun id c hc => Form.plain_of_mem_encode hc, ?_, ?_⟩
  · intro id id' h
    rw [target_filmUrl, target_filmUrl] at h
    -- in front of the ids, the targets are the same
    exact Form.encode_injective ((String.append_right_inj _).mp h)
  · intro slashed hslashed hlast id
    have hpath' : slashed.base.path = .segments (names ++ [""]) := by rw [hslashed]
    rw [url_details hpath', filmUrl, Url.stem_slashed hlast, hslashed]
    rfl

end Catalog

/-! ## An archive -/

namespace Archive

/-- A catalog whose address ends with a slash and has a query. -/
def catalog : Catalog :=
  ⟨⟨fun _ _ _ => .timedOut, fun _ => "not JSON"⟩,
    ⟨"https", some "films.example", .segments ["api", ""], some "key=a&b", none⟩, none⟩

/-- An id with all kinds of marks. -/
def marks : String := "7&limit=1#/../%2B+ é"

/-- It is a value like any other: the marks in it are written with percent signs, and reading the
query gives it back. -/
theorem marks_target : catalog.base.path = .segments ["api", ""] ∧
    ∃ url, catalog.url (.details marks) = .ok url ∧
      url.target = "/api/movie_details.json?key=a&b" ++
        "&movie_id=7%26limit%3D1%23%2F..%2F%252B%2B+%C3%A9" ∧
      Form.pairs (url.query?.getD "") =
        [(some "key", some "a"), (some "b", some ""), (some "movie_id", some marks)] := by
  obtain ⟨url, hurl, -, htarget, -, hpairs, -⟩ :=
    Catalog.film_target (show catalog.base.path = .segments ["api", ""] from rfl)
  refine ⟨rfl, url marks, hurl marks, ?_, ?_⟩
  · rw [htarget]
    rfl
  · rw [hpairs]
    rfl

end Archive

end FeedGraph
