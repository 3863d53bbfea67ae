import Bundler.Main
import Bundler.Proofs.Build.Again
import Bundler.Proofs.Build.Complete
import Bundler.Proofs.Bundle
import Bundler.Proofs.Config.Format
import Bundler.Proofs.Config.Merge
import Bundler.Proofs.Graph.Calls
import Bundler.Proofs.Graph.Distance
import Bundler.Proofs.Graph.Moved
import Bundler.Proofs.Location
import Bundler.Proofs.Lowering.Holders
import Bundler.Proofs.Lowering.LeftOut
import Bundler.Proofs.Lowering.Member
import Bundler.Proofs.Lowering.Order
import Bundler.Proofs.Lowering.Prologue
import Bundler.Proofs.Path.Normal
import Bundler.Proofs.Session
