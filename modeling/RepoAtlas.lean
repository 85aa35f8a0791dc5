import RepoAtlas.Form
import RepoAtlas.Journal
import RepoAtlas.Main
import RepoAtlas.Proofs.Graph.Calls
import RepoAtlas.Proofs.Graph.Forest
import RepoAtlas.Proofs.Pointing
import RepoAtlas.Proofs.Survey
import RepoAtlas.Proofs.Resolution
import RepoAtlas.Proofs.History.Log
import RepoAtlas.Proofs.History.Counting
import RepoAtlas.Proofs.Settings
import RepoAtlas.Proofs.Outcome
import RepoAtlas.Proofs.Acceptance
import RepoAtlas.Proofs.Loading
import RepoAtlas.Proofs.Comparison
import RepoAtlas.Proofs.Hidden
import RepoAtlas.Proofs.Editing
import RepoAtlas.Proofs.Uncounted
import RepoAtlas.Proofs.Graph.Restriction
import RepoAtlas.Proofs.Graph.Reordering
import RepoAtlas.Proofs.Script.Specifiers
import RepoAtlas.Proofs.Graph.Payload
import RepoAtlas.Proofs.Graph.Ranking
import RepoAtlas.Proofs.Average
import RepoAtlas.Proofs.Measure
import RepoAtlas.Proofs.Explanation.Heading
import RepoAtlas.Proofs.Explanation.Tiers
import RepoAtlas.Proofs.Staging
import RepoAtlas.Proofs.History.Memory
import RepoAtlas.Proofs.History.Churn
import RepoAtlas.Proofs.Explanation.Recognition
import RepoAtlas.Proofs.Graph.Location
import RepoAtlas.Proofs.Report.ShownPath
import RepoAtlas.Proofs.Exporting
import RepoAtlas.Proofs.Report.Clusters
import RepoAtlas.Proofs.Hash
import RepoAtlas.Proofs.Hundredths
import RepoAtlas.Proofs.Report.Labels
import RepoAtlas.Proofs.Extensions
import RepoAtlas.Proofs.Suffix
