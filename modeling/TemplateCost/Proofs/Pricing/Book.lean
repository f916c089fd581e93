import TemplateCost.Pricing.Book

/-! # Rows of a price book

Rows with the same provider, region and key are on one subject. A question is about two subjects: the one
with its location as the region, and the one without a region. The first row on the first of them answers
it, or else the first row on the second. Only the order within a subject counts, and rows on other
subjects do not count at all. A region that is the empty text is a region.
-/
namespace TemplateCost

namespace PriceRow

/-- Provider, region and key. -/
def subject (row : PriceRow) : String × Option String × String := (row.provider, row.region, row.key)

/-- The row has another provider, another key or a region that is not the location asked for. -/
inductive IsForeign (row : PriceRow) (q : PriceQuestion) : Prop
  | provider (h : row.provider ≠ q.provider)
  | key (h : row.key ≠ q.key)
  | region {region : String} (hregion : row.region = some region) (h : region ≠ q.location)

end PriceRow

namespace PriceQuestion

def specific (q : PriceQuestion) : String × Option String × String := (q.provider, some q.location, q.key)

def general (q : PriceQuestion) : String × Option String × String := (q.provider, none, q.key)

end PriceQuestion

theorem PriceRow.isForeign_iff {row : PriceRow} {q : PriceQuestion} :
    row.IsForeign q ↔ row.subject ≠ q.specific ∧ row.subject ≠ q.general := by
  simp only [subject, PriceQuestion.specific, PriceQuestion.general, ne_eq, Prod.mk.injEq]
  constructor
  · rintro (h | h | ⟨hregion, h⟩)
    · exact ⟨fun hsame => h hsame.1, fun hsame => h hsame.1⟩
    · exact ⟨fun hsame => h hsame.2.2, fun hsame => h hsame.2.2⟩
    · simp [hregion, h]
  · rintro ⟨hspecific, hgeneral⟩
    by_cases hprovider : row.provider = q.provider
    · by_cases hkey : row.key = q.key
      · cases hregion : row.region with
        | none => exact absurd ⟨hprovider, hregion, hkey⟩ hgeneral
        | some region =>
          refine .region hregion ?_
          rintro rfl
          exact hspecific ⟨hprovider, hregion, hkey⟩
      · exact .key hkey
    · exact .provider hprovider

namespace PriceBook
variable {book other : PriceBook} {q : PriceQuestion} {row : PriceRow}
  {subject : String × Option String × String}

/-- The rows on a subject, in the order of the book. -/
def rowsOn (book : PriceBook) (subject : String × Option String × String) : List PriceRow :=
  book.filter fun row => row.subject = subject

/-- No earlier row is on the subject. -/
def IsFirst (book : PriceBook) (subject : String × Option String × String) (row : PriceRow) : Prop :=
  ∃ before after, book = before ++ row :: after ∧ row.subject = subject ∧
    ∀ earlier ∈ before, earlier.subject ≠ subject

/-- The row counts for the question. -/
inductive Chooses (book : PriceBook) (q : PriceQuestion) (row : PriceRow) : Prop
  | specific (h : book.IsFirst q.specific row)
  | general (hnone : ∀ row ∈ book, row.subject ≠ q.specific) (h : book.IsFirst q.general row)

/-- What the chosen row says, if there is one. -/
inductive Answers (book : PriceBook) (q : PriceQuestion) : Except PricingError Price → Prop
  | price {row : PriceRow} (hrow : book.Chooses q row) (h : ¬ row.price.hourly < 0) :
      Answers book q (.ok row.price)
  | negative {row : PriceRow} (hrow : book.Chooses q row) (h : row.price.hourly < 0) :
      Answers book q (.error (.invalid ("negative hourly price for " ++ q.provider ++ "/" ++ q.key)))
  | notFound (h : ∀ row ∈ book, row.IsForeign q) : Answers book q (.error (.notFound q))

/-! ## The row that counts -/

theorem head?_rowsOn_eq_some_iff :
    (book.rowsOn subject).head? = some row ↔ book.IsFirst subject row := by
  rw [rowsOn, List.head?_filter, List.find?_eq_some_iff_append]
  constructor
  · rintro ⟨hrow, before, after, hbook, hbefore⟩
    exact ⟨before, after, hbook, by simpa using hrow, by simpa using hbefore⟩
  · rintro ⟨before, after, hbook, hrow, hbefore⟩
    exact ⟨by simpa using hrow, before, after, hbook, by simpa using hbefore⟩

theorem head?_rowsOn_eq_none_iff :
    (book.rowsOn subject).head? = none ↔ ∀ row ∈ book, row.subject ≠ subject := by
  simp [rowsOn]

/-- The search for the row, as a search in the rows on each subject. -/
theorem row?_eq (book : PriceBook) (q : PriceQuestion) :
    book.row? q = (book.rowsOn q.specific).head?.or (book.rowsOn q.general).head? := by
  have hspecific : ∀ row : PriceRow, (row.provider = q.provider ∧ row.key = q.key) ∧
      row.region = some q.location ↔ row.subject = q.specific := by
    simp [PriceRow.subject, PriceQuestion.specific, and_assoc, and_comm]
  have hgeneral : ∀ row : PriceRow, (row.provider = q.provider ∧ row.key = q.key) ∧
      row.region = none ↔ row.subject = q.general := by
    simp [PriceRow.subject, PriceQuestion.general, and_assoc, and_comm]
  simp [row?, candidates, rowsOn, List.find?_filter, hspecific, hgeneral]

theorem row?_eq_some_iff : book.row? q = some row ↔ book.Chooses q row := by
  simp only [row?_eq, Option.or_eq_some_iff, head?_rowsOn_eq_some_iff, head?_rowsOn_eq_none_iff]
  constructor
  · rintro (h | ⟨hnone, h⟩)
    · exact .specific h
    · exact .general hnone h
  · rintro (h | ⟨hnone, h⟩)
    · exact Or.inl h
    · exact Or.inr ⟨hnone, h⟩

theorem row?_eq_none_iff : book.row? q = none ↔ ∀ row ∈ book, row.IsForeign q := by
  simp only [row?_eq, Option.or_eq_none_iff, head?_rowsOn_eq_none_iff, PriceRow.isForeign_iff,
    forall_and]

theorem mem_of_row? (h : book.row? q = some row) : row ∈ book := by
  rcases row?_eq_some_iff.mp h with ⟨before, after, rfl, -⟩ | ⟨-, before, after, rfl, -⟩ <;> simp

/-! ## Answers -/

theorem lookup_of_not_negative (hrow : book.row? q = some row) (h : ¬ row.price.hourly < 0) :
    book.lookup q = .ok row.price := by
  unfold lookup
  rw [hrow]
  exact if_neg h

theorem lookup_of_negative (hrow : book.row? q = some row) (h : row.price.hourly < 0) :
    book.lookup q =
      .error (.invalid ("negative hourly price for " ++ q.provider ++ "/" ++ q.key)) := by
  unfold lookup
  rw [hrow]
  exact if_pos h

theorem lookup_of_row?_eq_none (h : book.row? q = none) : book.lookup q = .error (.notFound q) := by
  rw [lookup, h]

theorem Answers.lookup_eq {answer : Except PricingError Price} (h : book.Answers q answer) :
    book.lookup q = answer := by
  cases h with
  | price hrow hprice => exact lookup_of_not_negative (row?_eq_some_iff.mpr hrow) hprice
  | negative hrow hprice => exact lookup_of_negative (row?_eq_some_iff.mpr hrow) hprice
  | notFound hforeign => exact lookup_of_row?_eq_none (row?_eq_none_iff.mpr hforeign)

theorem answers_lookup (book : PriceBook) (q : PriceQuestion) : book.Answers q (book.lookup q) := by
  cases hrow : book.row? q with
  | none =>
    rw [lookup_of_row?_eq_none hrow]
    exact .notFound (row?_eq_none_iff.mp hrow)
  | some row =>
    by_cases h : row.price.hourly < 0
    · rw [lookup_of_negative hrow h]
      exact .negative (row?_eq_some_iff.mp hrow) h
    · rw [lookup_of_not_negative hrow h]
      exact .price (row?_eq_some_iff.mp hrow) h

theorem lookup_eq_ok_iff {price : Price} : book.lookup q = .ok price ↔
    ∃ row, book.row? q = some row ∧ ¬ row.price.hourly < 0 ∧ row.price = price := by
  constructor
  · intro h
    cases h ▸ answers_lookup book q with
    | price hrow hprice => exact ⟨_, row?_eq_some_iff.mpr hrow, hprice, rfl⟩
  · rintro ⟨row, hrow, h, rfl⟩
    exact lookup_of_not_negative hrow h

/-! ## Other layouts of a book -/

theorem lookup_congr (hspecific : other.rowsOn q.specific = book.rowsOn q.specific)
    (hgeneral : other.rowsOn q.general = book.rowsOn q.general) : other.lookup q = book.lookup q := by
  unfold lookup
  rw [row?_eq, row?_eq, hspecific, hgeneral]

/-- The rows on each subject are in the same order. -/
def Reorders (other book : PriceBook) : Prop := ∀ subject, other.rowsOn subject = book.rowsOn subject

theorem Reorders.perm (h : other.Reorders book) : other.Perm book := by
  apply List.perm_iff_count.mpr
  intro row
  have hcount : ∀ rows : PriceBook, (rows.rowsOn row.subject).count row = rows.count row :=
    fun rows => List.count_filter (by simp)
  rw [← hcount other, h, hcount book]

/-- Foreign rows are added, in any places. -/
inductive AddsForeign (q : PriceQuestion) : PriceBook → PriceBook → Prop
  | nil : AddsForeign q [] []
  | keep {other book : PriceBook} (row : PriceRow) (h : AddsForeign q other book) :
      AddsForeign q (row :: other) (row :: book)
  | add {other book : PriceBook} {row : PriceRow} (hrow : row.IsForeign q)
      (h : AddsForeign q other book) : AddsForeign q (row :: other) book

theorem AddsForeign.rowsOn_eq (h : other.AddsForeign q book)
    (hforeign : ∀ row : PriceRow, row.IsForeign q → row.subject ≠ subject) :
    other.rowsOn subject = book.rowsOn subject := by
  induction h with
  | nil => rfl
  -- a row that is kept is on the subject in both books, or in neither
  | keep row _ ih => rw [rowsOn, rowsOn, List.filter_cons, List.filter_cons, ← rowsOn, ih, rowsOn]
  | add hrow _ ih => rw [← ih, rowsOn, List.filter_cons_of_neg (by simpa using hforeign _ hrow), rowsOn]

end PriceBook

/-- A look-up takes the first row whose region is the location asked for, else the first one without a
region; a negative hourly price in the row that is taken is an error, and only foreign rows leave
nothing to take. The order of rows on different subjects does not count, and foreign rows do not
either. -/
theorem named_region_comes_first (book : PriceBook) (q : PriceQuestion) :
    (∀ answer, book.lookup q = answer ↔ book.Answers q answer) ∧
    (∀ other : PriceBook, other.Reorders book →
      other.Perm book ∧ other.lookup q = book.lookup q) ∧
    ∀ other : PriceBook, other.AddsForeign q book → other.lookup q = book.lookup q := by
  refine ⟨?_, ?_, ?_⟩
  · intro answer
    constructor
    · rintro rfl
      exact book.answers_lookup q
    · exact PriceBook.Answers.lookup_eq
  · intro other hreorders
    exact ⟨hreorders.perm, PriceBook.lookup_congr (hreorders _) (hreorders _)⟩
  · intro other hadds
    exact PriceBook.lookup_congr (hadds.rowsOn_eq fun _ h => (PriceRow.isForeign_iff.mp h).1)
      (hadds.rowsOn_eq fun _ h => (PriceRow.isForeign_iff.mp h).2)

/-- A flat price in dollars. -/
def microRow (region : Option String) (hourly : Float) : PriceRow :=
  ⟨"aws", region, "t2.micro", ⟨"USD", hourly, []⟩⟩

/-- The row for all regions stands first, and one region is the empty text. -/
def microBook : PriceBook :=
  [microRow none 0.02, microRow (some "us-east-1") 0.0116, microRow (some "") (-0.01)]

def microQuestion (location : String) : PriceQuestion := ⟨"aws", location, "t2.micro"⟩

theorem general_row_anywhere :
    PriceBook.lookup microBook (microQuestion "us-east-1") = .ok ⟨"USD", 0.0116, []⟩ ∧
    PriceBook.lookup microBook.reverse (microQuestion "us-east-1") = .ok ⟨"USD", 0.0116, []⟩ ∧
    PriceBook.lookup microBook (microQuestion "eu-west-1") = .ok ⟨"USD", 0.02, []⟩ ∧
    PriceBook.lookup microBook (microQuestion "") =
      .error (.invalid "negative hourly price for aws/t2.micro") := by
  have hreorders : PriceBook.Reorders microBook.reverse microBook := by
    intro subject
    by_cases hnone : (microRow none 0.02).subject = subject
    · subst hnone
      decide +kernel
    · by_cases heast : (microRow (some "us-east-1") 0.0116).subject = subject
      · subst heast
        decide +kernel
      · simp [PriceBook.rowsOn, microBook, List.filter_cons, hnone, heast]
  have hadds : PriceBook.AddsForeign (microQuestion "eu-west-1") microBook [microRow none 0.02] :=
    .keep _ (.add (.region rfl (by decide)) (.add (.region rfl (by decide)) .nil))
  have hspecific : PriceBook.Answers microBook (microQuestion "us-east-1") (.ok ⟨"USD", 0.0116, []⟩) :=
    .price (.specific ⟨[microRow none 0.02], [microRow (some "") (-0.01)], rfl, rfl, by decide⟩)
      (by decide +kernel)
  have hgeneral : PriceBook.Answers [microRow none 0.02] (microQuestion "eu-west-1")
      (.ok ⟨"USD", 0.02, []⟩) :=
    .price (.general (by decide) ⟨[], [], rfl, rfl, by simp⟩) (by decide +kernel)
  have hnegative : PriceBook.Answers microBook (microQuestion "")
      (.error (.invalid "negative hourly price for aws/t2.micro")) :=
    .negative (.specific ⟨microBook.take 2, [], rfl, rfl, by decide⟩) (by decide +kernel)
  obtain ⟨hanswers, hlayout, -⟩ := named_region_comes_first microBook (microQuestion "us-east-1")
  have heast := (hanswers _).mpr hspecific
  refine ⟨heast, (hlayout _ hreorders).2.trans heast, ?_, ?_⟩
  · obtain ⟨hanswers, -, hforeign⟩ :=
      named_region_comes_first [microRow none 0.02] (microQuestion "eu-west-1")
    exact (hforeign _ hadds).trans ((hanswers _).mpr hgeneral)
  · exact ((named_region_comes_first microBook (microQuestion "")).1 _).mpr hnegative

end TemplateCost
